import GoBindings.Proofs.EnumBases

set_option autoImplicit false

/-! # Which name a cycle is reported with

The walk from base to base starts at every name in order, and a failure names the start of the walk
that comes back. A walk comes back wherever it enters a cycle, so the name is that of the least
declaration that leads into a cycle, on it or not (`result_build_eq_inheritanceCycle_iff`). It is on
a cycle exactly if everything that only leads into one comes later than something on one. -/

namespace GoBindings.Registry

open Relation (TransGen)
open Outcome (FailsWith failsWith_forM)

/-! ## Cycles and what leads into them -/

/-- Following bases from the name comes back to it. -/
def OnCycle (stands : String → Entry → Prop) (name : String) : Prop :=
  TransGen (Extends stands) name name

theorem OnCycle.loops {stands : String → Entry → Prop} {name : String}
    (h : OnCycle stands name) : Loops stands name :=
  ⟨name, .refl, h⟩

theorem Loops.exists_onCycle {stands : String → Entry → Prop} {name : String}
    (h : Loops stands name) : ∃ c, OnCycle stands c := by
  obtain ⟨c, -, hcycle⟩ := h
  exact ⟨c, hcycle⟩

theorem Loops.exists_stands {stands : String → Entry → Prop} {name : String}
    (h : Loops stands name) : ∃ entry, stands name entry := by
  obtain ⟨c, hreach, hcycle⟩ := h
  obtain ⟨base, ⟨entry, hentry, -⟩, -⟩ := TransGen.head'_iff.1 (TransGen.trans_right hreach hcycle)
  exact ⟨entry, hentry⟩

/-- The least name that leads into a cycle. -/
structure FirstLooping (stands : String → Entry → Prop) (name : String) : Prop where
  loops : Loops stands name
  least : ∀ other, Loops stands other → ¬ other < name

/-- **When the least name that leads into a cycle is on one.** -/
theorem FirstLooping.onCycle_iff {stands : String → Entry → Prop} {name : String}
    (h : FirstLooping stands name) :
    OnCycle stands name ↔
      ∀ other, Loops stands other → OnCycle stands other ∨ ∃ c, OnCycle stands c ∧ c < other := by
  constructor
  · intro hcycle other hother
    by_cases hlt : name < other
    · exact Or.inr ⟨name, hcycle, hlt⟩
    · have heq : other = name :=
        String.le_antisymm (String.not_lt.1 hlt) (String.not_lt.1 (h.least other hother))
      exact Or.inl (heq ▸ hcycle)
  · intro hall
    rcases hall name h.loops with hcycle | ⟨c, hcycle, hlt⟩
    · exact hcycle
    · exact absurd hlt (h.least c hcycle.loops)

/-! ## The failure -/

theorem firstLooping_iff {r : Registry} {name : String} :
    FirstLooping r.Has name ↔ r.names.find? (r.comesBack []) = some name := by
  rw [find?_comesBack_eq_some_iff]
  exact ⟨fun h => ⟨h.loops, h.least⟩, fun h => ⟨h.1, h.2⟩⟩

theorem exists_firstLooping {r : Registry} {name : String} (h : Loops r.Has name) :
    ∃ first, FirstLooping r.Has first := by
  simp only [firstLooping_iff]
  rw [← Option.isSome_iff_exists, List.find?_isSome]
  rw [← comesBack_eq_true_iff] at h
  refine ⟨name, ?_, h⟩
  by_contra hnot
  exact absurd (h.symm.trans (comesBack_eq_false_of_not_mem hnot)) nofun

/-- Only the second check fails with a cycle, and it stops at the first name that leads into one. -/
theorem checkHierarchy_eq_inheritanceCycle_iff {r : Registry} {name : String} :
    r.checkHierarchy = .error (.inheritanceCycle name) ↔
      BasesDeclared r.Has ∧ FirstLooping r.Has name := by
  rw [firstLooping_iff, ← forM_checkBase_eq_ok_iff, checkHierarchy, forM_checkEnds_eq]
  cases hbases : r.names.forM r.checkBase with
  | error failure =>
    have hother : FailsWith (· ≠ .inheritanceCycle name) (r.names.forM r.checkBase) :=
      failsWith_forM (r.failsWith_checkBase (by simp)) r.names
    show Except.error failure = _ ↔ _
    simpa using hother failure hbases
  | ok _ =>
    cases r.names.find? (r.comesBack []) with
    | none =>
      show Except.ok () = Except.error _ ↔ _
      simp
    | some first =>
      show Except.error (Failure.inheritanceCycle first) = _ ↔ _
      simp

/-- **A cycle is reported with the least name that leads into one**, if all names and bases are as
    they should be. -/
theorem result_build_eq_inheritanceCycle_iff {overrides : Bool} {sources : List Source}
    {name : String} :
    (build overrides sources).result = .error (.inheritanceCycle name) ↔
      Declarable overrides sources ∧ BasesDeclared (Winning sources) ∧
        FirstLooping (Winning sources) name := by
  have hother : (declareAll overrides sources).FailsWith (· ≠ .inheritanceCycle name) :=
    failsWith_declareAll (by simp) overrides sources
  rw [build, Logged.result_bind]
  cases hresult : (declareAll overrides sources).result with
  | error failure =>
    have hundeclarable : ¬ Declarable overrides sources := by
      intro hdeclarable
      rw [result_declareAll_eq_ok_iff.2 ⟨hdeclarable, rfl⟩] at hresult
      simp at hresult
    show Except.error failure = _ ↔ _
    simpa [hundeclarable] using hother failure hresult
  | ok r =>
    obtain ⟨hdeclarable, rfl⟩ := result_declareAll_eq_ok_iff.1 hresult
    rw [and_iff_right hdeclarable, ← has_ofSources hdeclarable,
      ← checkHierarchy_eq_inheritanceCycle_iff]
    show (Logged.ofExcept (ofSources sources).checkHierarchy >>= fun _ => _).result = _ ↔ _
    rw [Logged.result_bind, Logged.result_ofExcept]
    cases (ofSources sources).checkHierarchy with
    | error failure =>
      show Except.error failure = _ ↔ _
      simp
    | ok _ =>
      show Except.ok (ofSources sources) = Except.error _ ↔ _
      simp

/-- **Which cycles are reported with a name on them.** A cycle is reported if there is one, and all
    names and bases are as they should be. The name is declared, and it is the least that leads into
    a cycle. It is on one exactly if each name that leads into a cycle without being on one is
    greater than a name that is. -/
theorem reported_name_on_cycle_iff (overrides : Bool) (sources : List Source) :
    ((∃ name, (build overrides sources).result = .error (.inheritanceCycle name)) ↔
      Declarable overrides sources ∧ BasesDeclared (Winning sources) ∧
        ∃ name, OnCycle (Winning sources) name) ∧
    ∀ name, (build overrides sources).result = .error (.inheritanceCycle name) →
      (∃ entry, Winning sources name entry) ∧ FirstLooping (Winning sources) name ∧
      (OnCycle (Winning sources) name ↔
        ∀ other, Loops (Winning sources) other →
          OnCycle (Winning sources) other ∨ ∃ c, OnCycle (Winning sources) c ∧ c < other) := by
  simp only [result_build_eq_inheritanceCycle_iff]
  refine ⟨⟨?_, ?_⟩, ?_⟩
  · rintro ⟨name, hdeclarable, hbases, hfirst⟩
    exact ⟨hdeclarable, hbases, hfirst.loops.exists_onCycle⟩
  · rintro ⟨hdeclarable, hbases, name, hcycle⟩
    have hhas := has_ofSources hdeclarable
    obtain ⟨first, hfirst⟩ := exists_firstLooping (hhas ▸ hcycle.loops)
    exact ⟨first, hdeclarable, hbases, hhas ▸ hfirst⟩
  · rintro name ⟨-, -, hfirst⟩
    exact ⟨hfirst.loops.exists_stands, hfirst, hfirst.onCycle_iff⟩

/-! ## Names on a cycle and off it -/

/-- The name that a cycle is reported with. -/
def reported? (x : Except Failure Registry) : Option String :=
  match x with
  | .error (.inheritanceCycle name) => some name
  | _ => none

theorem eq_inheritanceCycle_of_reported? {x : Except Failure Registry} {name : String}
    (h : reported? x = some name) : x = .error (.inheritanceCycle name) := by
  unfold reported? at h
  split at h
  · rw [Option.some.inj h]
  · exact nomatch h

def classWithBase (name base : String) : Schema.RemoteClass where
  name := name
  doc := ""
  baseText := some base
  properties := []
  methods := []
  events := []
  constructor := none

/-- Classes, each with the base that is given for it. -/
def classesWithBases (bases : List (String × String)) : List Source := [
  { path := ⟨"element.kmd.json"⟩
    document := {
      complexTypes := []
      remoteClasses := bases.map fun p => classWithBase p.1 p.2 } }]

theorem extends_classesWithBases_iff {bases : List (String × String)} {name base : String} :
    Extends (Winning (classesWithBases bases)) name base ↔
      ∃ written, (name, written) ∈ bases ∧ Schema.baseName (some written) = some base := by
  constructor
  · rintro ⟨entry, hwinning, hbase⟩
    cases hwinning with
    | type hs ht =>
      obtain rfl := List.mem_singleton.1 (List.mem_of_getElem? hs)
      exact nomatch List.mem_of_getElem? ht
    | remote hs hc =>
      obtain rfl := List.mem_singleton.1 (List.mem_of_getElem? hs)
      obtain ⟨⟨name, written⟩, hmem, rfl⟩ := List.mem_map.1 (List.mem_of_getElem? hc)
      exact ⟨written, hmem, hbase⟩
  · rintro ⟨written, hmem, hbase⟩
    obtain ⟨i, hi⟩ := List.mem_iff_getElem?.1 hmem
    have hsource : (classesWithBases bases)[0]? = some _ := rfl
    have hclass : (bases.map fun p => classWithBase p.1 p.2)[i]?
        = some (classWithBase name written) := by
      rw [List.getElem?_map, hi, Option.map_some]
    exact ⟨_, .remote hsource hclass, hbase⟩

/-- A cycle of two classes, and a third that extends one of them. -/
def elementSources : List Source :=
  classesWithBases [("Player", "Hub"), ("Element", "Hub"), ("Hub", "Element")]

theorem element_reported_on_cycle :
    (build false elementSources).result = .error (.inheritanceCycle "Element") ∧
      OnCycle (Winning elementSources) "Element" ∧
      ∀ other, Loops (Winning elementSources) other → OnCycle (Winning elementSources) other ∨
        ∃ c, OnCycle (Winning elementSources) c ∧ c < other := by
  have hreported : (build false elementSources).result = .error (.inheritanceCycle "Element") :=
    eq_inheritanceCycle_of_reported? (by decide +kernel)
  have hhub : Extends (Winning elementSources) "Element" "Hub" :=
    extends_classesWithBases_iff.2 ⟨"Hub", by simp, by decide +kernel⟩
  have helement : Extends (Winning elementSources) "Hub" "Element" :=
    extends_classesWithBases_iff.2 ⟨"Element", by simp, by decide +kernel⟩
  have hcycle : OnCycle (Winning elementSources) "Element" := .tail (.single hhub) helement
  obtain ⟨-, -, hiff⟩ := (reported_name_on_cycle_iff false elementSources).2 "Element" hreported
  exact ⟨hreported, hcycle, hiff.1 hcycle⟩

/-- A class that extends itself, and another that extends it. -/
def cameraSources : List Source := classesWithBases [("Camera", "Source"), ("Source", "Source")]

/-- **A class off the only cycle is reported**, because its name comes before those on it. -/
theorem camera_reported_off_cycle :
    (build false cameraSources).result = .error (.inheritanceCycle "Camera") ∧
      OnCycle (Winning cameraSources) "Source" ∧ ¬ OnCycle (Winning cameraSources) "Camera" := by
  have hsource : Schema.baseName (some "Source") = some "Source" := by decide +kernel
  refine ⟨eq_inheritanceCycle_of_reported? (by decide +kernel), ?_, ?_⟩
  · exact .single (extends_classesWithBases_iff.2 ⟨"Source", by simp, hsource⟩)
  · -- nothing extends the class, so no chain comes back to it
    intro hcycle
    obtain ⟨last, -, hlast⟩ := TransGen.tail'_iff.1 hcycle
    obtain ⟨written, hmem, hbase⟩ := extends_classesWithBases_iff.1 hlast
    have hwritten : written = "Source" := by
      simp only [List.mem_cons, Prod.mk.injEq, List.not_mem_nil, or_false] at hmem
      exact hmem.elim And.right And.right
    rw [hwritten, hsource] at hbase
    exact absurd (Option.some.inj hbase) (by decide)

end GoBindings.Registry
