import GoBindings.Proofs.Failures
import GoBindings.Proofs.Hierarchy
import GoBindings.Proofs.Lookups

set_option autoImplicit false

/-! # Bases of enumerations

An enumeration may be given a base, but the base means nothing: it need not be declared, and no code
is made of it. Only the check for cycles follows it like any other. So sources that differ in such
bases only are compared without them (`withoutEnumBases`). All stages do the same on both except
that check, and chains of values and classes never reach an enumeration. What is left is the case
that the check stops at an enumeration (`StopsAtEnum`). -/

namespace GoBindings

open Relation (ReflTransGen TransGen)

/-! ## Sources without bases of enumerations -/

def Schema.ComplexType.withoutEnumBase (t : ComplexType) : ComplexType :=
  if t.isEnum then { t with baseText := none } else t

namespace Source

def withoutEnumBases (s : Source) : Source :=
  { s with document :=
    { s.document with
      complexTypes := s.document.complexTypes.map Schema.ComplexType.withoutEnumBase } }

/-- Sources of which only the bases of enumerations tell which is which. -/
def SameButEnumBases (a b : List Source) : Prop :=
  a.map withoutEnumBases = b.map withoutEnumBases

end Source

/-- Nothing is made of the base of an enumeration. -/
theorem Interface.DataType.ofSchema_withoutEnumBase (path : Path) (t : Schema.ComplexType) :
    ofSchema path t.withoutEnumBase = ofSchema path t := by
  unfold Schema.ComplexType.withoutEnumBase
  split
  · next henum =>
    have henum' : ({ t with baseText := none } : Schema.ComplexType).isEnum = true := henum
    simp only [ofSchema, Shape.ofSchema, henum, henum', if_true]
  · rfl

theorem Interface.Module.ofSource_withoutEnumBases (s : Source) :
    ofSource s.withoutEnumBases = ofSource s := by
  simp only [ofSource, Source.withoutEnumBases, List.mapM_map, Function.comp_def,
    DataType.ofSchema_withoutEnumBase]

/-! ## Registries without bases of enumerations -/

def Entry.withoutEnumBase (e : Entry) : Entry :=
  if e.kind = .enum then { e with base := none } else e

@[simp]
theorem Entry.kind_withoutEnumBase (e : Entry) : e.withoutEnumBase.kind = e.kind := by
  unfold withoutEnumBase
  split <;> rfl

@[simp]
theorem Entry.origin_withoutEnumBase (e : Entry) : e.withoutEnumBase.origin = e.origin := by
  unfold withoutEnumBase
  split <;> rfl

@[simp]
theorem Entry.index_withoutEnumBase (e : Entry) : e.withoutEnumBase.index = e.index := by
  unfold withoutEnumBase
  split <;> rfl

namespace Registry

theorem typesOf_withoutEnumBases (s : Source) :
    typesOf s.withoutEnumBases = (typesOf s).map fun d => (d.1, d.2.withoutEnumBase) := by
  unfold typesOf Source.withoutEnumBases
  rw [List.zipIdx_map, List.map_map, List.map_map]
  refine List.map_congr_left fun ⟨t, i⟩ _ => ?_
  cases henum : t.isEnum with
  | true =>
    have henum' : ({ t with baseText := none } : Schema.ComplexType).isEnum = true := henum
    simp [Entry.withoutEnumBase, Schema.ComplexType.withoutEnumBase, henum, henum',
      Schema.ComplexType.base, Schema.baseName]
  | false =>
    simp [Entry.withoutEnumBase, Schema.ComplexType.withoutEnumBase, henum]

theorem classesOf_withoutEnumBases (s : Source) :
    classesOf s.withoutEnumBases = (classesOf s).map fun d => (d.1, d.2.withoutEnumBase) := by
  show classesOf s = _
  unfold classesOf
  rw [List.map_map]
  rfl

/-- Declaring goes by names and origins, so it does not matter when entries are changed. -/
theorem declareType_mapEntries {f : Entry → Entry} (hf : ∀ e, (f e).origin = e.origin)
    (overrides : Bool) (r : Registry) (d : String × Entry) :
    declareType overrides (r.mapEntries f) (d.1, f d.2)
      = mapEntries f <$> declareType overrides r d := by
  unfold declareType
  rw [find?_mapEntries]
  cases r.find? d.1 with
  | none =>
    rw [map_pure, mapEntries_set]
    rfl
  | some earlier =>
    simp only [Option.map_some, hf]
    cases overrides with
    | true => simp only [if_true, map_bind, map_pure, mapEntries_set]
    | false => rfl

theorem foldlM_declareType_mapEntries {f : Entry → Entry} (hf : ∀ e, (f e).origin = e.origin)
    (overrides : Bool) (r : Registry) (ds : List (String × Entry)) :
    (ds.map fun d => (d.1, f d.2)).foldlM (declareType overrides) (r.mapEntries f)
      = mapEntries f <$> ds.foldlM (declareType overrides) r := by
  induction ds generalizing r with
  | nil => rfl
  | cons d ds ih =>
    rw [List.map_cons, List.foldlM_cons, List.foldlM_cons, declareType_mapEntries hf, map_bind,
      bind_map_left]
    simp only [ih]

def withoutEnumBases (r : Registry) : Registry := r.mapEntries Entry.withoutEnumBase

theorem declareAll_withoutEnumBases (overrides : Bool) (sources : List Source) :
    declareAll overrides (sources.map Source.withoutEnumBases)
      = withoutEnumBases <$> declareAll overrides sources := by
  have htypes : (sources.map Source.withoutEnumBases).flatMap typesOf
      = (sources.flatMap typesOf).map fun d => (d.1, d.2.withoutEnumBase) := by
    rw [List.flatMap_map, List.map_flatMap]
    simp only [typesOf_withoutEnumBases]
  have hclasses : (sources.map Source.withoutEnumBases).flatMap classesOf
      = (sources.flatMap classesOf).map fun d => (d.1, d.2.withoutEnumBase) := by
    rw [List.flatMap_map, List.map_flatMap]
    simp only [classesOf_withoutEnumBases]
  have hfold := foldlM_declareType_mapEntries Entry.origin_withoutEnumBase
  have hempty : empty = empty.mapEntries Entry.withoutEnumBase := rfl
  unfold declareAll
  rw [htypes, hclasses, declareClass_eq, map_bind]
  conv_lhs => rw [hempty]
  rw [hfold, bind_map_left]
  simp only [hfold]
  rfl

/-- Registries of which only the bases of enumerations tell which is which. -/
def SameButEnumBases (r r' : Registry) : Prop := r.withoutEnumBases = r'.withoutEnumBases

namespace SameButEnumBases

variable {r r' : Registry}

theorem symm (h : r.SameButEnumBases r') : r'.SameButEnumBases r := Eq.symm h

theorem map_find?_eq (h : r.SameButEnumBases r') (name : String) :
    (r.find? name).map Entry.withoutEnumBase = (r'.find? name).map Entry.withoutEnumBase := by
  rw [← find?_mapEntries, ← find?_mapEntries]
  exact congrArg (fun r : Registry => r.find? name) h

theorem kindOf?_eq (h : r.SameButEnumBases r') : r.kindOf? = r'.kindOf? := by
  have hkind : Entry.kind = Entry.kind ∘ Entry.withoutEnumBase := by
    funext e
    exact e.kind_withoutEnumBase.symm
  funext name
  rw [kindOf?, kindOf?, hkind, ← Option.map_map, ← Option.map_map, h.map_find?_eq]

theorem names_eq (h : r.SameButEnumBases r') : r.names = r'.names := by
  rw [← names_mapEntries Entry.withoutEnumBase r, ← names_mapEntries Entry.withoutEnumBase r']
  exact congrArg names h

/-- Only enumerations may have different bases. -/
theorem baseOf?_eq (h : r.SameButEnumBases r') {name : String}
    (hkind : r.kindOf? name ≠ some .enum) : r.baseOf? name = r'.baseOf? name := by
  have hbase : ∀ {q : Registry}, q.kindOf? name ≠ some .enum →
      q.baseOf? name = ((q.find? name).map Entry.withoutEnumBase).bind Entry.base := by
    intro q hq
    unfold baseOf?
    unfold kindOf? at hq
    cases hfind : q.find? name with
    | none => rfl
    | some entry =>
      rw [hfind, Option.map_some] at hq
      have hentry : entry.kind ≠ .enum := fun henum => hq (congrArg some henum)
      simp [Entry.withoutEnumBase, hentry]
  rw [hbase hkind, hbase (h.kindOf?_eq ▸ hkind), h.map_find?_eq]

theorem checkBase_eq (h : r.SameButEnumBases r') : r.checkBase = r'.checkBase := by
  funext name
  rw [Registry.checkBase_eq, Registry.checkBase_eq, h.kindOf?_eq]
  by_cases henum : r'.kindOf? name = some .enum
  · cases r.baseOf? name <;> cases r'.baseOf? name <;> simp [henum]
  · rw [h.baseOf?_eq (h.kindOf?_eq ▸ henum)]

theorem contains_eq (h : r.SameButEnumBases r') (name : String) :
    r.contains name = r'.contains name := by
  unfold contains
  rw [← Option.isSome_map (f := Entry.withoutEnumBase), h.map_find?_eq, Option.isSome_map]

theorem ownedTypes_eq (h : r.SameButEnumBases r') (m : Interface.Module) :
    Binding.ownedTypes r m = Binding.ownedTypes r' m := by
  have howner : Binding.isOwner r = Binding.isOwner r' := by
    funext source name index
    have hfind := h.map_find?_eq name
    unfold Binding.isOwner
    cases hr : r.find? name with
    | none =>
      rw [hr, Option.map_none, eq_comm, Option.map_eq_none_iff] at hfind
      rw [hfind]
    | some entry =>
      rw [hr, Option.map_some, eq_comm, Option.map_eq_some_iff] at hfind
      obtain ⟨entry', hr', hsame⟩ := hfind
      have horigin := congrArg Entry.origin hsame
      have hindex := congrArg Entry.index hsame
      simp only [Entry.origin_withoutEnumBase, Entry.index_withoutEnumBase] at horigin hindex
      simp only [hr', horigin, hindex]
  simp only [Binding.ownedTypes, howner]

theorem ofModule_eq (h : r.SameButEnumBases r') :
    Binding.ModuleUnits.ofModule r = Binding.ModuleUnits.ofModule r' := by
  funext code m
  exact Binding.ModuleUnits.ofModule_congr_owned h.kindOf?_eq (h.ownedTypes_eq m) rfl code

/-! ## Chains of values and classes -/

/-- What is no enumeration extends the same in both, and nothing that is an enumeration. -/
theorem extends_of_extends (h : r.SameButEnumBases r') (hbases : BasesDeclared r.Has)
    {name base : String} (hkind : r.kindOf? name ≠ some .enum) (hext : Extends r.Has name base) :
    Extends r'.Has name base ∧ r.kindOf? base ≠ some .enum := by
  constructor
  · rw [extends_has_iff] at hext ⊢
    rw [← h.baseOf?_eq hkind, hext]
  · obtain ⟨entry, hentry, hbase⟩ := hext
    have hentry : r.find? name = some entry := hentry
    rw [kindOf?, hentry] at hkind
    have hne : entry.kind ≠ .enum := fun henum => hkind (congrArg some henum)
    obtain ⟨found, hfound, hsame⟩ := hbases name entry base hentry hne hbase
    have hfound : r.find? base = some found := hfound
    rw [kindOf?, hfound, Option.map_some, hsame]
    exact fun heq => hne (Option.some.inj heq)

theorem reaches_of_reaches (h : r.SameButEnumBases r') (hbases : BasesDeclared r.Has)
    {name c : String} (hkind : r.kindOf? name ≠ some .enum)
    (hreach : ReflTransGen (Extends r.Has) name c) :
    ReflTransGen (Extends r'.Has) name c ∧ r.kindOf? c ≠ some .enum := by
  induction hreach with
  | refl => exact ⟨.refl, hkind⟩
  | tail _ hstep ih =>
    obtain ⟨hstep, hnext⟩ := h.extends_of_extends hbases ih.2 hstep
    exact ⟨ih.1.tail hstep, hnext⟩

/-- The chain of what is no enumeration runs into a cycle in both or in none. -/
theorem loops_of_loops (h : r.SameButEnumBases r') (hbases : BasesDeclared r.Has) {name : String}
    (hkind : r.kindOf? name ≠ some .enum) (hloops : Loops r.Has name) : Loops r'.Has name := by
  obtain ⟨c, hreach, hcycle⟩ := hloops
  obtain ⟨hreach, hc⟩ := h.reaches_of_reaches hbases hkind hreach
  obtain ⟨base, hstep, hback⟩ := TransGen.head'_iff.1 hcycle
  obtain ⟨hstep, hbase⟩ := h.extends_of_extends hbases hc hstep
  exact ⟨c, hreach, TransGen.head' hstep (h.reaches_of_reaches hbases hbase hback).1⟩

end SameButEnumBases

/-! ## Where the check for cycles stops -/

/-- A check of names in turn stops at the first that comes back. -/
theorem forM_checkEnds_eq (r : Registry) (names : List String) :
    names.forM r.checkEnds = match names.find? (r.comesBack []) with
      | some name => .error (.inheritanceCycle name)
      | none => .ok () := by
  induction names with
  | nil => rfl
  | cons name names ih =>
    show (r.checkEnds name >>= fun _ => names.forM r.checkEnds) = _
    rw [ih, checkEnds, List.find?_cons]
    cases r.comesBack [] name <;> rfl

/-- The first name in order with a property is the least that has it. -/
theorem find?_eq_some_iff_least {names : List String} (h : names.Pairwise (· < ·))
    {p : String → Bool} {name : String} :
    names.find? p = some name ↔
      (name ∈ names ∧ p name = true) ∧ ∀ other ∈ names, p other = true → ¬ other < name := by
  induction names with
  | nil => simp
  | cons n names ih =>
    obtain ⟨hn, hrest⟩ := List.pairwise_cons.1 h
    rw [List.find?_cons]
    cases hp : p n with
    | true =>
      simp only [Option.some.injEq, List.mem_cons, forall_eq_or_imp]
      constructor
      · rintro rfl
        exact ⟨⟨Or.inl rfl, hp⟩, fun _ => String.lt_irrefl n,
          fun other hother _ => String.lt_asymm (hn other hother)⟩
      · rintro ⟨⟨rfl | hmem, -⟩, hleast, -⟩
        · rfl
        · exact absurd (hn name hmem) (hleast hp)
    | false =>
      have hne : ∀ {other}, p other = true → other ≠ n := by
        rintro other hother rfl
        exact absurd (hother.symm.trans hp) nofun
      simp only [ih hrest, List.mem_cons, forall_eq_or_imp]
      constructor
      · rintro ⟨⟨hmem, hname⟩, hleast⟩
        exact ⟨⟨Or.inr hmem, hname⟩, fun hn => absurd (hn.symm.trans hp) nofun, hleast⟩
      · rintro ⟨⟨hmem, hname⟩, -, hleast⟩
        exact ⟨⟨hmem.resolve_left (hne hname), hname⟩, hleast⟩

theorem find?_comesBack_eq_some_iff {r : Registry} {name : String} :
    r.names.find? (r.comesBack []) = some name ↔
      Loops r.Has name ∧ ∀ other, Loops r.Has other → ¬ other < name := by
  have hmem : ∀ {n}, Loops r.Has n → n ∈ r.names := by
    intro n hn
    by_contra hnot
    rw [← comesBack_eq_true_iff, comesBack_eq_false_of_not_mem hnot] at hn
    exact Bool.false_ne_true hn
  have hsorted : r.names.Pairwise (· < ·) := NameSet.pairwise_ofList _
  rw [find?_eq_some_iff_least hsorted]
  simp only [comesBack_eq_true_iff]
  constructor
  · rintro ⟨⟨-, hloops⟩, hleast⟩
    exact ⟨hloops, fun other hother => hleast other (hmem hother) hother⟩
  · rintro ⟨hloops, hleast⟩
    exact ⟨⟨hmem hloops, hloops⟩, fun other _ => hleast other⟩

/-- Two searches that differ on some names only come out differently only at one of these. -/
theorem find?_eq_find?_iff {names : List String} {p q : String → Bool} {differ : String → Prop}
    (h : ∀ name, ¬ differ name → p name = q name) :
    names.find? p = names.find? q ↔
      ∀ name, differ name → (names.find? p = some name ↔ names.find? q = some name) := by
  refine ⟨fun heq name _ => by rw [heq], ?_⟩
  induction names with
  | nil => exact fun _ => rfl
  | cons n names ih =>
    intro hall
    have hhead : p n = q n := by
      by_cases hn : differ n
      · have hfound : ∀ {f : String → Bool}, (n :: names).find? f = some n ↔ f n = true := by
          intro f
          refine ⟨fun hf => List.find?_some hf, fun hf => ?_⟩
          rw [List.find?_cons, hf]
        have hiff := hall n hn
        rwa [hfound, hfound, ← Bool.eq_iff_iff] at hiff
      · exact h n hn
    rw [List.find?_cons, List.find?_cons, hhead] at hall ⊢
    cases hq : q n with
    | true => rfl
    | false =>
      simp only [hq] at hall
      exact ih hall

/-- The check for cycles is reached, and it stops at an enumeration: the least name of which the
    chain of bases runs into a cycle. -/
structure StopsAtEnum (overrides : Bool) (sources : List Source) (name : String) : Prop
    extends Declarable overrides sources where
  bases_declared : BasesDeclared (Winning sources)
  enumeration : ∃ entry, Winning sources name entry ∧ entry.kind = .enum
  loops : Loops (Winning sources) name
  least : ∀ other, Loops (Winning sources) other → ¬ other < name

theorem stopsAtEnum_iff {overrides : Bool} {sources : List Source}
    (h : Declarable overrides sources) (hbases : BasesDeclared (ofSources sources).Has)
    {name : String} :
    StopsAtEnum overrides sources name ↔
      (ofSources sources).kindOf? name = some .enum ∧
        (ofSources sources).names.find? ((ofSources sources).comesBack []) = some name := by
  rw [find?_comesBack_eq_some_iff, kindOf?, Option.map_eq_some_iff]
  have hhas := has_ofSources h
  constructor
  · intro hstops
    obtain ⟨entry, hentry, hkind⟩ := hstops.enumeration
    rw [← hhas] at hentry
    exact ⟨⟨entry, hentry, hkind⟩, hhas ▸ ⟨hstops.loops, hstops.least⟩⟩
  · rintro ⟨⟨entry, hentry, hkind⟩, hloops, hleast⟩
    rw [hhas] at hbases hloops hleast
    exact ⟨h, hbases, ⟨entry, hhas ▸ hentry, hkind⟩, hloops, hleast⟩

/-- What comes before the check for cycles has succeeded. -/
theorem StopsAtEnum.reached {overrides : Bool} {sources : List Source} {name : String}
    (h : StopsAtEnum overrides sources name) :
    (declareAll overrides sources).result = .ok (ofSources sources) ∧
      (ofSources sources).names.forM (ofSources sources).checkBase = .ok () := by
  refine ⟨result_declareAll_eq_ok_iff.2 ⟨h.toDeclarable, rfl⟩, forM_checkBase_eq_ok_iff.2 ?_⟩
  rw [has_ofSources h.toDeclarable]
  exact h.bases_declared

theorem not_stopsAtEnum_of_build {overrides : Bool} {sources : List Source}
    (h : (build overrides sources).result.isOk = true) (name : String) :
    ¬ StopsAtEnum overrides sources name := by
  obtain ⟨r, hr⟩ := Outcome.exists_eq_ok_of_isOk h
  intro hstops
  obtain ⟨c, -, hcycle⟩ := hstops.loops
  exact (acceptable_of_build hr).no_cycle c hcycle

/-- Two checks that are reached stop at the same name unless one stops at an enumeration. -/
theorem find?_comesBack_eq_iff {overrides : Bool} {a b : List Source}
    (ha : Declarable overrides a) (hb : Declarable overrides b)
    (h : (ofSources a).SameButEnumBases (ofSources b))
    (hbases : (ofSources a).names.forM (ofSources a).checkBase = .ok ()) :
    (ofSources a).names.find? ((ofSources a).comesBack [])
        = (ofSources b).names.find? ((ofSources b).comesBack []) ↔
      ∀ name, StopsAtEnum overrides a name ↔ StopsAtEnum overrides b name := by
  have hbases' : (ofSources b).names.forM (ofSources b).checkBase = .ok () := by
    rw [← h.names_eq, ← h.checkBase_eq, hbases]
  rw [forM_checkBase_eq_ok_iff] at hbases hbases'
  have hsame : ∀ name, (ofSources a).kindOf? name ≠ some .enum →
      (ofSources a).comesBack [] name = (ofSources b).comesBack [] name := by
    intro name hkind
    rw [Bool.eq_iff_iff, comesBack_eq_true_iff, comesBack_eq_true_iff]
    exact ⟨h.loops_of_loops hbases hkind, h.symm.loops_of_loops hbases' (h.kindOf?_eq ▸ hkind)⟩
  simp only [stopsAtEnum_iff ha hbases, stopsAtEnum_iff hb hbases', ← h.names_eq, ← h.kindOf?_eq,
    and_congr_right_iff]
  exact find?_eq_find?_iff hsame

end Registry

/-! ## Outcomes of runs -/

/-- Steps that are the same once their results are changed succeed or fail together. -/
theorem Logged.cases_of_map_eq {α β : Type} {f : α → β} {x y : Logged α} (h : f <$> x = f <$> y) :
    (x = y ∧ ∃ failure, x.result = .error failure) ∨
      ∃ notices a b, x = ⟨notices, .ok a⟩ ∧ y = ⟨notices, .ok b⟩ ∧ f a = f b := by
  have hmap : ∀ z : Logged α, f <$> z = ⟨z.notices, f <$> z.result⟩ := by
    rintro ⟨notices, failure | a⟩
    · rfl
    · rw [← bind_pure_comp]
      show (⟨notices ++ [], .ok (f a)⟩ : Logged β) = _
      rw [List.append_nil]
      rfl
  rw [hmap, hmap, Logged.mk.injEq] at h
  obtain ⟨notices, x⟩ := x
  obtain ⟨notices', y⟩ := y
  obtain ⟨rfl, hresult⟩ := h
  cases x with
  | error failure =>
    cases y with
    | error failure' =>
      cases hresult
      exact Or.inl ⟨rfl, failure, rfl⟩
    | ok b => cases hresult
  | ok a =>
    cases y with
    | error failure' => cases hresult
    | ok b => exact Or.inr ⟨notices, a, b, rfl, rfl, Except.ok.inj hresult⟩

namespace Compilation

open Registry (StopsAtEnum ofSources)

/-- What a run makes of its sources once everything is declared. -/
def afterDeclaring (s : Settings) (sources : List Source) (r : Registry) :
    Logged (List OutputFile) := do
  Logged.ofExcept r.checkHierarchy
  afterRegistry s sources r

theorem compileSources_eq_declareAll_bind (s : Settings) (sources : List Source) :
    compileSources s sources
      = Registry.declareAll s.code.allowOverrides sources >>= afterDeclaring s sources := by
  rw [compileSources_eq_bind, Registry.build]
  simp only [bind_assoc, pure_bind]
  rfl

theorem afterDeclaring_of_bases {s : Settings} {sources : List Source} {r : Registry}
    (h : r.names.forM r.checkBase = .ok ()) :
    afterDeclaring s sources r = match r.names.find? (r.comesBack []) with
      | some name => .fail (.inheritanceCycle name)
      | none => afterRegistry s sources r := by
  rw [afterDeclaring, Registry.checkHierarchy, h, Registry.forM_checkEnds_eq]
  cases r.names.find? (r.comesBack []) <;> rfl

theorem afterDeclaring_of_error {s : Settings} {sources : List Source} {r : Registry}
    {failure : Failure} (h : r.names.forM r.checkBase = .error failure) :
    afterDeclaring s sources r = .fail failure := by
  rw [afterDeclaring, Registry.checkHierarchy, h]
  rfl

theorem afterRegistry_eq {a b : List Source} {r r' : Registry} (s : Settings)
    (hsources : Source.SameButEnumBases a b) (h : r.SameButEnumBases r') :
    afterRegistry s a r = afterRegistry s b r' := by
  have hmodules : a.mapM Interface.Module.ofSource = b.mapM Interface.Module.ofSource := by
    have hofSource : Interface.Module.ofSource
        = Interface.Module.ofSource ∘ Source.withoutEnumBases := by
      funext source
      exact (Interface.Module.ofSource_withoutEnumBases source).symm
    rw [hofSource, ← List.mapM_map, ← List.mapM_map, hsources]
  simp only [afterRegistry, noteRoot, h.contains_eq, h.ofModule_eq, hmodules]

/-- Runs that have declared the same go on the same way unless the checks for cycles stop at
    different names. -/
theorem afterDeclaring_eq_iff {a b : List Source} {r r' : Registry} (s : Settings)
    (hsources : Source.SameButEnumBases a b) (h : r.SameButEnumBases r')
    (hbases : r.names.forM r.checkBase = .ok ()) :
    ((afterDeclaring s a r).result = (afterDeclaring s b r').result ↔
        r.names.find? (r.comesBack []) = r'.names.find? (r'.comesBack [])) ∧
      (r.names.find? (r.comesBack []) = r'.names.find? (r'.comesBack []) →
        afterDeclaring s a r = afterDeclaring s b r') := by
  have hbases' : r'.names.forM r'.checkBase = .ok () := by
    rw [← h.names_eq, ← h.checkBase_eq, hbases]
  have hnever : ∀ name, (afterRegistry s b r').result ≠ .error (.inheritanceCycle name) :=
    fun name hresult => failsWith_afterRegistry s b r' _ hresult
  rw [afterDeclaring_of_bases hbases, afterDeclaring_of_bases hbases',
    afterRegistry_eq s hsources h]
  cases r.names.find? (r.comesBack []) with
  | none =>
    cases r'.names.find? (r'.comesBack []) with
    | none => simp
    | some name' => simpa using hnever name'
  | some name =>
    cases r'.names.find? (r'.comesBack []) with
    | none => simpa using fun heq => hnever name heq.symm
    | some name' => simp +contextual

/-- **When the bases of enumerations matter.** Runs on sources that differ in the bases of
    enumerations only have the same result, files or failure, exactly if the check for cycles stops
    at the same enumeration in both or at none in either. Then their notices are the same too. -/
theorem same_result_whatever_enum_bases_iff (s : Settings) {a b : List Source}
    (h : Source.SameButEnumBases a b) :
    ((compileSources s a).result = (compileSources s b).result ↔
        ∀ name, StopsAtEnum s.code.allowOverrides a name ↔
          StopsAtEnum s.code.allowOverrides b name) ∧
      ((compileSources s a).result = (compileSources s b).result →
        (compileSources s a).notices = (compileSources s b).notices) := by
  have hdeclared : Registry.withoutEnumBases <$> Registry.declareAll s.code.allowOverrides a
      = Registry.withoutEnumBases <$> Registry.declareAll s.code.allowOverrides b := by
    rw [← Registry.declareAll_withoutEnumBases, ← Registry.declareAll_withoutEnumBases, h]
  rw [compileSources_eq_declareAll_bind, compileSources_eq_declareAll_bind]
  rcases Logged.cases_of_map_eq hdeclared with
    ⟨hsame, failure, hfail⟩ | ⟨notices, r, r', hr, hr', hcore⟩
  · -- nothing that comes later is reached
    have heq : Registry.declareAll s.code.allowOverrides a >>= afterDeclaring s a
        = Registry.declareAll s.code.allowOverrides b >>= afterDeclaring s b := by
      show Logged.andThen _ _ = Logged.andThen _ _
      rw [← hsame, Logged.andThen, Logged.andThen, hfail]
    rw [heq]
    refine ⟨iff_of_true rfl fun name => ?_, fun _ => rfl⟩
    refine iff_of_false (fun hstops => ?_) fun hstops => ?_
    · exact absurd (hfail.symm.trans hstops.reached.1) nofun
    · exact absurd ((hsame ▸ hfail).symm.trans hstops.reached.1) nofun
  · obtain ⟨ha, rfl⟩ := Registry.result_declareAll_eq_ok_iff.1 (congrArg Logged.result hr)
    obtain ⟨hb, rfl⟩ := Registry.result_declareAll_eq_ok_iff.1 (congrArg Logged.result hr')
    have hcore : (ofSources a).SameButEnumBases (ofSources b) := hcore
    rw [hr, hr']
    show ((afterDeclaring s a (ofSources a)).result = (afterDeclaring s b (ofSources b)).result ↔
        _) ∧ (_ → notices ++ (afterDeclaring s a (ofSources a)).notices
          = notices ++ (afterDeclaring s b (ofSources b)).notices)
    cases hbases : (ofSources a).names.forM (ofSources a).checkBase with
    | ok _ =>
      obtain ⟨hiff, heq⟩ := afterDeclaring_eq_iff s h hcore hbases
      rw [← Registry.find?_comesBack_eq_iff ha hb hcore hbases]
      exact ⟨hiff, fun hresult => by rw [heq (hiff.1 hresult)]⟩
    | error failure =>
      have hbases' : (ofSources b).names.forM (ofSources b).checkBase = .error failure := by
        rw [← hcore.names_eq, ← hcore.checkBase_eq, hbases]
      rw [afterDeclaring_of_error hbases, afterDeclaring_of_error hbases']
      refine ⟨iff_of_true rfl fun name => ?_, fun _ => rfl⟩
      refine iff_of_false (fun hstops => ?_) fun hstops => ?_
      · exact absurd (hbases.symm.trans hstops.reached.2) nofun
      · exact absurd (hbases'.symm.trans hstops.reached.2) nofun

/-- Enumerations that extend each other and, in the end, what is given. -/
def levelSources (base : Option String) : List Source := [
  { path := ⟨"level.kmd.json"⟩
    document := {
      remoteClasses := []
      complexTypes := [
        { format := some "Enum", name := "Level", doc := "", values := ["LOW"], properties := []
          baseText := base },
        { format := some "ENUM", name := "Scale", doc := "", values := ["LIN"], properties := []
          baseText := some "Level" },
        { format := none, name := "Knob", doc := "", values := [], baseText := none
          properties := [⟨"level", "Level", "", false, none⟩] }] } }]

theorem level_same_result_whatever_base :
    (compileSources .default (levelSources (some "Knob"))).result
      = (compileSources .default (levelSources (some "Missing"))).result := by
  have hsame : Source.SameButEnumBases (levelSources (some "Knob"))
      (levelSources (some "Missing")) := rfl
  refine (same_result_whatever_enum_bases_iff .default hsame).1.2 fun name => ?_
  exact iff_of_false (Registry.not_stopsAtEnum_of_build (by decide +kernel) name)
    (Registry.not_stopsAtEnum_of_build (by decide +kernel) name)

/-! ## A base that matters -/

def stateSources (base : Option String) : List Source := [
  { path := ⟨"state.kmd.json"⟩
    document := {
      remoteClasses := []
      complexTypes := [
        { format := some "ENUM", name := "State", doc := "", values := ["ON"], properties := []
          baseText := base }] } }]

/-- **An enumeration that extends itself stops a run** that succeeds without that base. -/
theorem state_base_stops_run :
    Source.SameButEnumBases (stateSources (some "State")) (stateSources none) ∧
      (compileSources .default (stateSources (some "State"))).result
        = .error (.inheritanceCycle "State") ∧
      ∃ files, (compileSources .default (stateSources none)).result = .ok files := by
  refine ⟨rfl, ?_, Outcome.exists_eq_ok_of_isOk (by decide +kernel)⟩
  have hstops : (match (compileSources .default (stateSources (some "State"))).result with
      | .error (.inheritanceCycle name) => name == "State"
      | _ => false) = true := by
    decide +kernel
  split at hstops
  · next name hresult => rw [hresult, eq_of_beq hstops]
  · exact absurd hstops Bool.false_ne_true

end Compilation

end GoBindings
