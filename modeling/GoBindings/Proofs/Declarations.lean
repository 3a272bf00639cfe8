import GoBindings.Proofs.Outcome
import GoBindings.Registry
import Mathlib.Data.List.Nodup

set_option autoImplicit false

/-! # What the registry holds

Declaring is a fold that may fail on a name it has met before. The fold is taken apart once
(`foldlM_declareType_eq_ok_iff`): it succeeds if no name is met again, or if that is allowed, and
then it has entered every declaration over what was there. So a lookup finds the last declaration of
a name (`find?_enterAll`). `Winning` says which one that is by its position in the sources, without
any registry, and `has_ofSources` compares the two. -/

namespace GoBindings

/-! ## Names that sources declare -/

namespace Source

/-- The names of the complex types of all sources, in order. -/
def typeNames (sources : List Source) : List String :=
  sources.flatMap fun s => s.document.complexTypes.map Schema.ComplexType.name

/-- The names of the classes of all sources, in order. -/
def classNames (sources : List Source) : List String :=
  sources.flatMap fun s => s.document.remoteClasses.map Schema.RemoteClass.name

end Source

namespace Registry

open Source (typeNames classNames)

/-- Items entered by name and position keep their names. -/
theorem map_fst_map_zipIdx {α : Type} (name : α → String) (entry : α × Nat → Entry)
    (items : List α) :
    (items.zipIdx.map fun p => (name p.1, entry p)).map Prod.fst = items.map name := by
  have hcomp : (Prod.fst ∘ fun p : α × Nat => (name p.1, entry p)) = name ∘ Prod.fst := rfl
  rw [List.map_map, hcomp, ← List.map_map, List.zipIdx_map_fst]

theorem map_fst_typesOf (s : Source) :
    (typesOf s).map Prod.fst = s.document.complexTypes.map Schema.ComplexType.name :=
  map_fst_map_zipIdx Schema.ComplexType.name _ _

theorem map_fst_classesOf (s : Source) :
    (classesOf s).map Prod.fst = s.document.remoteClasses.map Schema.RemoteClass.name :=
  map_fst_map_zipIdx Schema.RemoteClass.name _ _

theorem map_fst_types (sources : List Source) :
    (sources.flatMap typesOf).map Prod.fst = typeNames sources := by
  simp only [List.map_flatMap, map_fst_typesOf, typeNames]

theorem map_fst_classes (sources : List Source) :
    (sources.flatMap classesOf).map Prod.fst = classNames sources := by
  simp only [List.map_flatMap, map_fst_classesOf, classNames]

/-! ## Lookups -/

@[simp]
theorem find?_empty (name : String) : empty.find? name = none := rfl

theorem find?_set (r : Registry) (name : String) (entry : Entry) (n : String) :
    (r.set name entry).find? n = if n = name then some entry else r.find? n := by
  unfold find? set
  by_cases hn : n = name
  · simp [hn]
  · have hne : name ≠ n := fun h => hn h.symm
    rw [if_neg hn, List.find?_cons_of_neg (by simpa using hne), List.find?_filter]
    congr 2
    funext e
    by_cases he : e.1 = n
    · simp [he, hn]
    · simp [he]

theorem mem_names_iff {r : Registry} {name : String} :
    name ∈ r.names ↔ ∃ entry, r.find? name = some entry := by
  unfold names find?
  rw [NameSet.mem_ofList, List.mem_map]
  constructor
  · rintro ⟨e, he, rfl⟩
    cases hf : r.entries.find? fun d => d.1 == e.1 with
    | none => simpa using List.find?_eq_none.1 hf e he
    | some d => exact ⟨d.2, by simp⟩
  · rintro ⟨entry, h⟩
    obtain ⟨e, hf, -⟩ := Option.map_eq_some_iff.1 h
    have hname := List.find?_some hf
    exact ⟨e, List.mem_of_find?_eq_some hf, eq_of_beq hname⟩

theorem resolve_eq_ok_iff {r : Registry} {name : String} {place : Place} {entry : Entry} :
    r.resolve name place = .ok entry ↔ r.find? name = some entry := by
  unfold resolve
  cases r.find? name with
  | none => simp
  | some found => simp

/-! ## Declaring in turn -/

/-- Declarations in turn, each over what was there. -/
def enterAll (r : Registry) (ds : List (String × Entry)) : Registry :=
  ds.foldl (fun r d => r.set d.1 d.2) r

theorem lookup_reverse_eq_none_iff {ds : List (String × Entry)} {name : String} :
    ds.reverse.lookup name = none ↔ name ∉ ds.map Prod.fst := by
  rw [lookup_eq_none_iff_not_mem, List.map_reverse, List.mem_reverse]

/-- The last declaration of a name counts. -/
theorem find?_enterAll (r : Registry) (ds : List (String × Entry)) (name : String) :
    (r.enterAll ds).find? name = (ds.reverse.lookup name).or (r.find? name) := by
  induction ds generalizing r with
  | nil => simp [enterAll]
  | cons d ds ih =>
    show ((r.set d.1 d.2).enterAll ds).find? name = _
    -- `d` counts only if nothing after it has its name: it comes last in the reversed list
    rw [ih, find?_set, List.reverse_cons, List.lookup_append, Option.or_assoc]
    obtain ⟨n, entry⟩ := d
    by_cases hn : name = n
    · simp [hn]
    · have hne : (name == n) = false := by simpa using hn
      simp [hn, List.lookup_cons, hne]

theorem result_declareType_eq_ok_iff {overrides : Bool} {r r' : Registry} {d : String × Entry} :
    (declareType overrides r d).result = .ok r' ↔
      (overrides = true ∨ r.find? d.1 = none) ∧ r' = r.set d.1 d.2 := by
  unfold declareType
  cases hf : r.find? d.1 with
  | none => simp [eq_comm]
  | some earlier =>
    cases overrides with
    | true =>
      show (Except.ok (r.set d.1 d.2) : Except Failure Registry) = .ok r' ↔ _
      simp [eq_comm]
    | false => simp

/-- A class is declared like a complex type that replaces nothing. -/
theorem declareClass_eq : declareClass = declareType false := by
  funext r d
  unfold declareClass declareType
  cases r.find? d.1 <;> rfl

theorem foldlM_declareType_eq_ok_iff {overrides : Bool} {r r' : Registry}
    {ds : List (String × Entry)} :
    (ds.foldlM (declareType overrides) r).result = .ok r' ↔
      (overrides = true ∨ (ds.map Prod.fst).Nodup ∧ ∀ d ∈ ds, r.find? d.1 = none) ∧
        r' = r.enterAll ds := by
  induction ds generalizing r with
  | nil => simp [enterAll, eq_comm]
  | cons d ds ih =>
    -- what the rest needs, once `d` is entered: other names than `d`, and none that was there
    have hfresh : (∀ e ∈ ds, (r.set d.1 d.2).find? e.1 = none) ↔
        d.1 ∉ ds.map Prod.fst ∧ ∀ e ∈ ds, r.find? e.1 = none := by
      rw [List.mem_map, not_exists, ← forall_and]
      refine forall_congr' fun e => ?_
      rw [find?_set]
      by_cases he : e.1 = d.1
      · simp +contextual [he]
      · simp [he]
    rw [List.foldlM_cons, Logged.result_bind, Outcome.bind_eq_ok_iff]
    simp only [result_declareType_eq_ok_iff, ih, List.map_cons, List.nodup_cons,
      List.forall_mem_cons]
    constructor
    · rintro ⟨_, ⟨hd, rfl⟩, hds, rfl⟩
      refine ⟨?_, rfl⟩
      rcases hds with hov | ⟨hnodup, hrest⟩
      · exact Or.inl hov
      · obtain ⟨hnew, hrest⟩ := hfresh.1 hrest
        exact hd.imp_right fun hd => ⟨⟨hnew, hnodup⟩, hd, hrest⟩
    · rintro ⟨h, rfl⟩
      refine ⟨_, ⟨h.imp_right fun h => h.2.1, rfl⟩, h.imp_right fun h => ?_, rfl⟩
      exact ⟨h.1.2, hfresh.2 ⟨h.1.1, h.2.2⟩⟩

/-! ## The declaration that counts -/

/-- What the complex type at a position of a source is entered as. -/
def typeEntry (path : Path) (index : Nat) (t : Schema.ComplexType) : Entry where
  kind := if t.isEnum then .enum else .value
  origin := path
  index := index
  base := t.base

/-- What the class at a position of a source is entered as. -/
def classEntry (path : Path) (index : Nat) (c : Schema.RemoteClass) : Entry where
  kind := .remote
  origin := path
  index := index
  base := c.base

/-- The declaration that counts for a name: its last complex type, by source and then by position,
    or a class. -/
inductive Winning (sources : List Source) : String → Entry → Prop
  | type {k i : Nat} {s : Source} {t : Schema.ComplexType}
      (hs : sources[k]? = some s) (ht : s.document.complexTypes[i]? = some t)
      (hrest : t.name ∉ (s.document.complexTypes.drop (i + 1)).map Schema.ComplexType.name)
      (hlater : t.name ∉ typeNames (sources.drop (k + 1))) :
      Winning sources t.name (typeEntry s.path i t)
  | remote {k i : Nat} {s : Source} {c : Schema.RemoteClass}
      (hs : sources[k]? = some s) (hc : s.document.remoteClasses[i]? = some c) :
      Winning sources c.name (classEntry s.path i c)

/-- The last pair with a key, by its position. -/
theorem lookup_reverse_eq_some_iff {ds : List (String × Entry)} {name : String} {entry : Entry} :
    ds.reverse.lookup name = some entry ↔
      ∃ i, ds[i]? = some (name, entry) ∧ name ∉ (ds.drop (i + 1)).map Prod.fst := by
  induction ds with
  | nil => simp
  | cons d ds ih =>
    rw [List.reverse_cons, List.lookup_append, Option.or_eq_some_iff, ih,
      lookup_reverse_eq_none_iff]
    have hlast : [d].lookup name = some entry ↔ d = (name, entry) := by
      obtain ⟨n, e⟩ := d
      by_cases hn : name = n
      · simp [hn]
      · have hne : (name == n) = false := by simpa using hn
        have hne' : n ≠ name := fun h => hn h.symm
        simp [List.lookup_cons, hne, hne']
    rw [hlast]
    constructor
    · rintro (⟨i, hi, hrest⟩ | ⟨hrest, rfl⟩)
      · exact ⟨i + 1, hi, hrest⟩
      · exact ⟨0, rfl, hrest⟩
    · rintro ⟨i, hi, hrest⟩
      cases i with
      | zero => exact Or.inr ⟨hrest, Option.some.inj hi⟩
      | succ i => exact Or.inl ⟨i, hi, hrest⟩

/-- Where no key occurs twice, every pair is the last one with its key. -/
theorem lookup_reverse_eq_some_iff_mem {ds : List (String × Entry)} (h : (ds.map Prod.fst).Nodup)
    {name : String} {entry : Entry} :
    ds.reverse.lookup name = some entry ↔ (name, entry) ∈ ds := by
  rw [lookup_reverse_eq_some_iff]
  constructor
  · rintro ⟨i, hi, -⟩
    exact List.mem_of_getElem? hi
  · intro hmem
    obtain ⟨i, hi⟩ := List.mem_iff_getElem?.1 hmem
    refine ⟨i, hi, ?_⟩
    obtain ⟨hlt, hget⟩ := List.getElem?_eq_some_iff.1 hi
    -- cut the list at the pair: its key stands at the head of the second half
    rw [← List.take_append_drop i ds, List.map_append, List.drop_eq_getElem_cons hlt,
      List.map_cons, hget] at h
    exact (List.nodup_cons.1 (List.nodup_append.1 h).2.1).1

theorem getElem?_typesOf (s : Source) (i : Nat) :
    (typesOf s)[i]? =
      (s.document.complexTypes[i]?).map fun t => (t.name, typeEntry s.path i t) := by
  unfold typesOf
  rw [List.getElem?_map, List.getElem?_zipIdx, Option.map_map, Nat.zero_add]
  rfl

theorem getElem?_classesOf (s : Source) (i : Nat) :
    (classesOf s)[i]? =
      (s.document.remoteClasses[i]?).map fun c => (c.name, classEntry s.path i c) := by
  unfold classesOf
  rw [List.getElem?_map, List.getElem?_zipIdx, Option.map_map, Nat.zero_add]
  rfl

/-- The last source that declares a complex type decides. -/
theorem lookup_types_eq_some_iff {sources : List Source} {name : String} {entry : Entry} :
    (sources.flatMap typesOf).reverse.lookup name = some entry ↔
      ∃ k s, sources[k]? = some s ∧ (typesOf s).reverse.lookup name = some entry ∧
        name ∉ typeNames (sources.drop (k + 1)) := by
  induction sources with
  | nil => simp
  | cons s sources ih =>
    rw [List.flatMap_cons, List.reverse_append, List.lookup_append, Option.or_eq_some_iff, ih,
      lookup_reverse_eq_none_iff, map_fst_types]
    constructor
    · rintro (⟨k, s', hs, hentry, hlater⟩ | ⟨hlater, hentry⟩)
      · exact ⟨k + 1, s', hs, hentry, hlater⟩
      · exact ⟨0, s, rfl, hentry, hlater⟩
    · rintro ⟨k, s', hs, hentry, hlater⟩
      cases k with
      | zero =>
        obtain rfl : s = s' := Option.some.inj hs
        exact Or.inr ⟨hlater, hentry⟩
      | succ k => exact Or.inl ⟨k, s', hs, hentry, hlater⟩

/-- All declarations, classes after complex types. -/
def ofSources (sources : List Source) : Registry :=
  (empty.enterAll (sources.flatMap typesOf)).enterAll (sources.flatMap classesOf)

/-- No name is declared in a way that the registry refuses. -/
structure Declarable (overrides : Bool) (sources : List Source) : Prop where
  classes_once : (classNames sources).Nodup
  classes_apart : ∀ name ∈ classNames sources, name ∉ typeNames sources
  types_once : overrides = true ∨ (typeNames sources).Nodup

/-- What a registry says of a name. -/
def Has (r : Registry) (name : String) (entry : Entry) : Prop := r.find? name = some entry

theorem winning_of_lookup_types {sources : List Source} {name : String} {entry : Entry}
    (h : (sources.flatMap typesOf).reverse.lookup name = some entry) :
    Winning sources name entry := by
  obtain ⟨k, s, hs, hentry, hlater⟩ := lookup_types_eq_some_iff.1 h
  obtain ⟨i, hi, hrest⟩ := lookup_reverse_eq_some_iff.1 hentry
  rw [getElem?_typesOf] at hi
  obtain ⟨t, ht, heq⟩ := Option.map_eq_some_iff.1 hi
  obtain ⟨rfl, rfl⟩ := Prod.mk.inj heq
  rw [List.map_drop, map_fst_typesOf, ← List.map_drop] at hrest
  exact .type hs ht hrest hlater

theorem winning_of_mem_classes {sources : List Source} {name : String} {entry : Entry}
    (h : (name, entry) ∈ sources.flatMap classesOf) : Winning sources name entry := by
  obtain ⟨s, hs, hmem⟩ := List.mem_flatMap.1 h
  obtain ⟨k, hk⟩ := List.mem_iff_getElem?.1 hs
  obtain ⟨i, hi⟩ := List.mem_iff_getElem?.1 hmem
  rw [getElem?_classesOf] at hi
  obtain ⟨c, hc, heq⟩ := Option.map_eq_some_iff.1 hi
  obtain ⟨rfl, rfl⟩ := Prod.mk.inj heq
  exact .remote hk hc

theorem mem_types {sources : List Source} {k i : Nat} {s : Source} {t : Schema.ComplexType}
    (hs : sources[k]? = some s) (ht : s.document.complexTypes[i]? = some t) :
    (t.name, typeEntry s.path i t) ∈ sources.flatMap typesOf := by
  have hmem : (typesOf s)[i]? = some (t.name, typeEntry s.path i t) := by
    rw [getElem?_typesOf, ht]; rfl
  exact List.mem_flatMap.2 ⟨s, List.mem_of_getElem? hs, List.mem_of_getElem? hmem⟩

theorem mem_classes {sources : List Source} {k i : Nat} {s : Source} {c : Schema.RemoteClass}
    (hs : sources[k]? = some s) (hc : s.document.remoteClasses[i]? = some c) :
    (c.name, classEntry s.path i c) ∈ sources.flatMap classesOf := by
  have hmem : (classesOf s)[i]? = some (c.name, classEntry s.path i c) := by
    rw [getElem?_classesOf, hc]; rfl
  exact List.mem_flatMap.2 ⟨s, List.mem_of_getElem? hs, List.mem_of_getElem? hmem⟩

theorem mem_typeNames {sources : List Source} {k i : Nat} {s : Source} {t : Schema.ComplexType}
    (hs : sources[k]? = some s) (ht : s.document.complexTypes[i]? = some t) :
    t.name ∈ typeNames sources := by
  rw [← map_fst_types]
  exact List.mem_map_of_mem (mem_types hs ht)

theorem mem_classNames {sources : List Source} {k i : Nat} {s : Source} {c : Schema.RemoteClass}
    (hs : sources[k]? = some s) (hc : s.document.remoteClasses[i]? = some c) :
    c.name ∈ classNames sources := by
  rw [← map_fst_classes]
  exact List.mem_map_of_mem (mem_classes hs hc)

theorem Winning.mem_names {sources : List Source} {name : String} {entry : Entry}
    (h : Winning sources name entry) : name ∈ typeNames sources ∨ name ∈ classNames sources := by
  cases h with
  | type hs ht => exact Or.inl (mem_typeNames hs ht)
  | remote hs hc => exact Or.inr (mem_classNames hs hc)

theorem Winning.mem_classNames_of_kind {sources : List Source} {name : String} {entry : Entry}
    (h : Winning sources name entry) (hkind : entry.kind = .remote) :
    name ∈ classNames sources := by
  cases h with
  | @type k i s t hs ht =>
    have hne : (typeEntry s.path i t).kind ≠ .remote := by
      unfold typeEntry
      cases t.isEnum <;> simp
    exact absurd hkind hne
  | remote hs hc => exact mem_classNames hs hc

/-- **The registry of all declarations** says of a name what the declaration that counts says. -/
theorem has_ofSources {overrides : Bool} {sources : List Source}
    (h : Declarable overrides sources) : (ofSources sources).Has = Winning sources := by
  funext name entry
  rw [eq_iff_iff]
  unfold Has ofSources
  rw [find?_enterAll, find?_enterAll, find?_empty, Option.or_none, Option.or_eq_some_iff,
    lookup_reverse_eq_some_iff_mem (map_fst_classes sources ▸ h.classes_once),
    lookup_reverse_eq_none_iff, map_fst_classes]
  constructor
  · rintro (hclass | ⟨-, htype⟩)
    · exact winning_of_mem_classes hclass
    · exact winning_of_lookup_types htype
  · intro hw
    cases hw with
    | @type k i s t hs ht hrest hlater =>
      refine Or.inr ⟨fun hc => h.classes_apart _ hc (mem_typeNames hs ht), ?_⟩
      refine lookup_types_eq_some_iff.2 ⟨k, s, hs, lookup_reverse_eq_some_iff.2 ⟨i, ?_, ?_⟩, hlater⟩
      · rw [getElem?_typesOf, ht]; rfl
      · rw [List.map_drop, map_fst_typesOf, ← List.map_drop]; exact hrest
    | remote hs hc => exact Or.inl (mem_classes hs hc)

theorem find?_ofSources_eq_none_iff {sources : List Source} {name : String} :
    (ofSources sources).find? name = none ↔
      name ∉ typeNames sources ∧ name ∉ classNames sources := by
  unfold ofSources
  rw [find?_enterAll, find?_enterAll, find?_empty, Option.or_none, Option.or_eq_none_iff,
    lookup_reverse_eq_none_iff, lookup_reverse_eq_none_iff, map_fst_types, map_fst_classes,
    and_comm]

/-- Declaring everything succeeds exactly if all names are as they should be. -/
theorem result_declareAll_eq_ok_iff {overrides : Bool} {sources : List Source} {r : Registry} :
    (declareAll overrides sources).result = .ok r ↔
      Declarable overrides sources ∧ r = ofSources sources := by
  unfold declareAll
  rw [declareClass_eq, Logged.result_bind, Outcome.bind_eq_ok_iff]
  simp only [foldlM_declareType_eq_ok_iff, map_fst_types, map_fst_classes]
  have hapart : (∀ d ∈ sources.flatMap classesOf,
      (empty.enterAll (sources.flatMap typesOf)).find? d.1 = none) ↔
        ∀ name ∈ classNames sources, name ∉ typeNames sources := by
    rw [← map_fst_classes, List.forall_mem_map]
    refine forall₂_congr fun d _ => ?_
    rw [find?_enterAll, find?_empty, Option.or_none, lookup_reverse_eq_none_iff, map_fst_types]
  constructor
  · rintro ⟨_, ⟨htypes, rfl⟩, hclasses, rfl⟩
    obtain ⟨hnodup, hfresh⟩ := hclasses.resolve_left Bool.false_ne_true
    exact ⟨⟨hnodup, hapart.1 hfresh, htypes.imp_right And.left⟩, rfl⟩
  · rintro ⟨h, rfl⟩
    refine ⟨_, ⟨h.types_once.imp_right fun hnodup => ⟨hnodup, fun d _ => rfl⟩, rfl⟩, ?_, rfl⟩
    exact Or.inr ⟨h.classes_once, hapart.2 h.classes_apart⟩

end Registry

end GoBindings
