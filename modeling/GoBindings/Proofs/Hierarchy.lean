import GoBindings.Proofs.Declarations
import Mathlib.Logic.Relation
import Mathlib.Order.WellFounded

set_option autoImplicit false

/-! # Which sources have a registry

The walk from base to base (`comesBack`) is compared with the relation `Extends`. Everything the
walk has visited leads to where it is, so a name that comes again lies on a cycle
(`loops_of_comesBack`); and a walk that stops has seen the whole chain (`acc_of_comesBack`).
Together with the checks on names and bases this gives the exact condition under which a registry is
built, and what it then says about every name. -/

namespace GoBindings.Registry

open Relation (ReflTransGen TransGen)
open Source (typeNames classNames)

/-- What `name` stands for extends `base`. Enumerations count here, though their base means
    nothing otherwise. -/
def Extends (stands : String → Entry → Prop) (name base : String) : Prop :=
  ∃ entry, stands name entry ∧ entry.base = some base

/-- Every value or class that has a base has one of its own kind. -/
def BasesDeclared (stands : String → Entry → Prop) : Prop :=
  ∀ name entry base, stands name entry → entry.kind ≠ .enum → entry.base = some base →
    ∃ found, stands base found ∧ found.kind = entry.kind

theorem extends_has_iff {r : Registry} {name base : String} :
    Extends r.Has name base ↔ r.baseOf? name = some base :=
  Option.bind_eq_some_iff.symm

/-! ## Following bases -/

/-- What a walk has visited leads to where it is. -/
def LeadsTo (r : Registry) (visited : List String) (name : String) : Prop :=
  ∀ v ∈ visited, TransGen (Extends r.Has) v name

theorem LeadsTo.step {r : Registry} {visited : List String} {name base : String}
    (h : r.LeadsTo visited name) (hbase : r.baseOf? name = some base) :
    r.LeadsTo (name :: visited) base := by
  have hext : Extends r.Has name base := extends_has_iff.2 hbase
  intro v hv
  rcases List.mem_cons.1 hv with rfl | hv
  · exact .single hext
  · exact (h v hv).tail hext

/-- The chain of bases of a name runs into a cycle. -/
def Loops (stands : String → Entry → Prop) (name : String) : Prop :=
  ∃ c, ReflTransGen (Extends stands) name c ∧ TransGen (Extends stands) c c

/-- A walk that comes back has met a cycle. -/
theorem loops_of_comesBack {r : Registry} {visited : List String} {name : String}
    (hlead : r.LeadsTo visited name) (h : r.comesBack visited name = true) :
    Loops r.Has name := by
  fun_induction comesBack r visited name with
  | case1 => exact absurd h (by simp)
  | case2 visited name base hbase hv => exact ⟨name, .refl, hlead name hv⟩
  | case3 visited name base hbase hv ih =>
    obtain ⟨c, hreach, hcycle⟩ := ih (hlead.step hbase) h
    exact ⟨c, hreach.head (extends_has_iff.2 hbase), hcycle⟩

/-- A walk that ends has seen the whole chain of bases. -/
theorem acc_of_comesBack {r : Registry} {visited : List String} {name : String}
    (h : r.comesBack visited name = false) :
    Acc (fun base name => Extends r.Has name base) name := by
  fun_induction comesBack r visited name with
  | case1 visited name hnone =>
    refine ⟨name, fun base hbase => ?_⟩
    rw [extends_has_iff.1 hbase] at hnone
    exact absurd hnone (by simp)
  | case2 => exact absurd h (by simp)
  | case3 visited name base hbase hv ih =>
    -- the base of a name is unique, so the chain goes on nowhere else
    refine ⟨name, fun b hb => ?_⟩
    have heq : b = base := Option.some.inj ((extends_has_iff.1 hb).symm.trans hbase)
    exact heq ▸ ih h

theorem not_loops_of_acc {stands : String → Entry → Prop} {name : String}
    (h : Acc (fun base name => Extends stands name base) name) : ¬ Loops stands name := by
  induction h with
  | intro name _ ih =>
    rintro ⟨c, hreach, hcycle⟩
    -- a chain that runs into a cycle goes on from every name
    obtain ⟨base, hbase, hrest⟩ := TransGen.head'_iff.1 (TransGen.trans_right hreach hcycle)
    exact ih base hbase ⟨c, hrest, hcycle⟩

/-- A walk comes back exactly if the chain of bases runs into a cycle. -/
theorem comesBack_eq_true_iff {r : Registry} {name : String} :
    r.comesBack [] name = true ↔ Loops r.Has name := by
  constructor
  · exact loops_of_comesBack fun v hv => absurd hv List.not_mem_nil
  · intro hloops
    by_contra hends
    exact not_loops_of_acc (acc_of_comesBack (Bool.of_not_eq_true hends)) hloops

/-- No walk comes back exactly if there is no cycle. -/
theorem forall_comesBack_eq_false_iff {r : Registry} :
    (∀ name, r.comesBack [] name = false) ↔
      ∀ name, ¬ TransGen (Extends r.Has) name name := by
  constructor
  · intro h name hcycle
    have hwf : WellFounded fun base name => Extends r.Has name base :=
      ⟨fun n => acc_of_comesBack (h n)⟩
    exact hwf.transGen.irrefl.irrefl name (Relation.transGen_swap.2 hcycle)
  · intro h name
    by_contra hback
    obtain ⟨c, -, hc⟩ := loops_of_comesBack (fun v hv => absurd hv List.not_mem_nil)
      (Bool.of_not_eq_false hback)
    exact h c hc

theorem comesBack_eq_false_of_not_mem {r : Registry} {name : String} (h : name ∉ r.names) :
    r.comesBack [] name = false := by
  have hnone : r.baseOf? name = none := by
    cases hbase : r.baseOf? name with
    | none => rfl
    | some base =>
      obtain ⟨entry, hentry, -⟩ := extends_has_iff.2 hbase
      exact absurd (mem_names_iff.2 ⟨entry, hentry⟩) h
  unfold comesBack
  split
  · rfl
  · next hsome => rw [hnone] at hsome; exact absurd hsome (by simp)

/-- The check for cycles passes exactly if there is none. -/
theorem forM_checkEnds_eq_ok_iff {r : Registry} :
    r.names.forM r.checkEnds = .ok () ↔ ∀ name, ¬ TransGen (Extends r.Has) name name := by
  have hcheck : ∀ name, r.checkEnds name = .ok () ↔ r.comesBack [] name = false := by
    intro name
    unfold checkEnds
    cases r.comesBack [] name <;> simp
  rw [Outcome.forM_eq_ok_iff, ← forall_comesBack_eq_false_iff]
  simp only [hcheck]
  constructor
  · intro h name
    by_cases hname : name ∈ r.names
    · exact h name hname
    · exact comesBack_eq_false_of_not_mem hname
  · intro h name _
    exact h name

/-! ## Bases that are declared -/

theorem checkBase_eq_ok_iff {r : Registry} {name : String} {entry : Entry}
    (h : r.find? name = some entry) :
    r.checkBase name = .ok () ↔ ∀ base, entry.kind ≠ .enum → entry.base = some base →
      ∃ found, r.find? base = some found ∧ found.kind = entry.kind := by
  unfold checkBase
  rw [h]
  obtain ⟨kind, origin, index, base⟩ := entry
  cases base with
  | none => simp
  | some base =>
    by_cases henum : kind = .enum
    · simp [henum]
    · simp [henum, Option.map_eq_some_iff]

theorem forM_checkBase_eq_ok_iff {r : Registry} :
    r.names.forM r.checkBase = .ok () ↔ BasesDeclared r.Has := by
  rw [Outcome.forM_eq_ok_iff]
  constructor
  · intro h name entry base hentry
    exact (checkBase_eq_ok_iff hentry).1 (h name (mem_names_iff.2 ⟨entry, hentry⟩)) base
  · intro h name hname
    obtain ⟨entry, hentry⟩ := mem_names_iff.1 hname
    exact (checkBase_eq_ok_iff hentry).2 fun base => h name entry base hentry

theorem checkHierarchy_eq_ok_iff {r : Registry} :
    r.checkHierarchy = .ok () ↔
      BasesDeclared r.Has ∧ ∀ name, ¬ TransGen (Extends r.Has) name name := by
  unfold checkHierarchy
  rw [Outcome.check_bind_eq_ok_iff, forM_checkBase_eq_ok_iff, forM_checkEnds_eq_ok_iff]

/-! ## The whole registry -/

/-- Sources that have a registry: their names may be declared as they are, bases are declared, and
    no chain of bases comes back to its start. -/
structure Acceptable (overrides : Bool) (sources : List Source) : Prop
    extends Declarable overrides sources where
  bases_declared : BasesDeclared (Winning sources)
  no_cycle : ∀ name, ¬ TransGen (Extends (Winning sources)) name name

theorem result_build_eq_ok_iff {overrides : Bool} {sources : List Source} {r : Registry} :
    (build overrides sources).result = .ok r ↔
      Acceptable overrides sources ∧ r = ofSources sources := by
  have hsplit : (build overrides sources).result = .ok r ↔
      Declarable overrides sources ∧ (ofSources sources).checkHierarchy = .ok () ∧
        r = ofSources sources := by
    unfold build
    rw [Logged.result_bind, Outcome.bind_eq_ok_iff]
    simp only [result_declareAll_eq_ok_iff, Logged.result_bind, Logged.result_ofExcept,
      Outcome.check_bind_eq_ok_iff, Logged.result_pure, Except.ok.injEq]
    constructor
    · rintro ⟨_, ⟨hd, rfl⟩, hh, rfl⟩
      exact ⟨hd, hh, rfl⟩
    · rintro ⟨hd, hh, rfl⟩
      exact ⟨_, ⟨hd, rfl⟩, hh, rfl⟩
  rw [hsplit]
  constructor
  · rintro ⟨hd, hh, rfl⟩
    obtain ⟨hbases, hcycle⟩ := checkHierarchy_eq_ok_iff.1 hh
    rw [has_ofSources hd] at hbases hcycle
    exact ⟨⟨hd, hbases, hcycle⟩, rfl⟩
  · rintro ⟨h, rfl⟩
    refine ⟨h.toDeclarable, checkHierarchy_eq_ok_iff.2 ?_, rfl⟩
    rw [has_ofSources h.toDeclarable]
    exact ⟨h.bases_declared, h.no_cycle⟩

theorem acceptable_of_build {overrides : Bool} {sources : List Source} {r : Registry}
    (h : (build overrides sources).result = .ok r) : Acceptable overrides sources :=
  (result_build_eq_ok_iff.1 h).1

/-- Every name stands for the declaration that counts. -/
theorem has_of_build {overrides : Bool} {sources : List Source} {r : Registry}
    (h : (build overrides sources).result = .ok r) : r.Has = Winning sources := by
  obtain ⟨hacc, rfl⟩ := result_build_eq_ok_iff.1 h
  exact has_ofSources hacc.toDeclarable

theorem find?_eq_some_of_build {overrides : Bool} {sources : List Source} {r : Registry}
    (h : (build overrides sources).result = .ok r) {name : String} {entry : Entry} :
    r.find? name = some entry ↔ Winning sources name entry := by
  rw [← has_of_build h]
  rfl

theorem find?_eq_none_of_build {overrides : Bool} {sources : List Source} {r : Registry}
    (h : (build overrides sources).result = .ok r) {name : String} :
    r.find? name = none ↔ name ∉ typeNames sources ∧ name ∉ classNames sources := by
  obtain ⟨-, rfl⟩ := result_build_eq_ok_iff.1 h
  exact find?_ofSources_eq_none_iff

theorem wellFounded_of_build {overrides : Bool} {sources : List Source} {r : Registry}
    (h : (build overrides sources).result = .ok r) :
    WellFounded fun base name => Extends r.Has name base := by
  have hcycle := (acceptable_of_build h).no_cycle
  rw [← has_of_build h, ← forall_comesBack_eq_false_iff] at hcycle
  exact ⟨fun name => acc_of_comesBack (hcycle name)⟩

/-- **The registry accepts exactly the acceptable sources.** It then says of every name what the
    declaration that counts says and of other names nothing, and every chain of bases in it ends. -/
theorem build_succeeds_iff_acceptable (overrides : Bool) (sources : List Source) :
    ((∃ r, (build overrides sources).result = .ok r) ↔ Acceptable overrides sources) ∧
      ∀ r, (build overrides sources).result = .ok r →
        (∀ name entry, r.find? name = some entry ↔ Winning sources name entry) ∧
        (∀ name, r.find? name = none ↔ name ∉ typeNames sources ∧ name ∉ classNames sources) ∧
        WellFounded fun base name =>
          ∃ entry, r.find? name = some entry ∧ entry.base = some base := by
  refine ⟨⟨?_, ?_⟩, ?_⟩
  · rintro ⟨r, hr⟩
    exact acceptable_of_build hr
  · intro h
    exact ⟨ofSources sources, result_build_eq_ok_iff.2 ⟨h, rfl⟩⟩
  · intro r hr
    exact ⟨fun _ _ => find?_eq_some_of_build hr, fun _ => find?_eq_none_of_build hr,
      wellFounded_of_build hr⟩

end GoBindings.Registry
