import GoBindings.Proofs.Occurrences
import GoBindings.Proofs.ReturnBlocks
import GoBindings.Proofs.Signatures

set_option autoImplicit false

/-! # Keys of maps

Go refuses a map that is written out with a key twice. The maps of a method have fixed keys, and its
arguments go under the names of its parameters, which differ. The map of a constructor has a key for
every parameter that is filled in, and nothing keeps two parameters from having one name; this is
the only way in which keys can repeat. -/

namespace GoBindings

open Go (Expr Stmt)

namespace Binding

/-! ## Methods -/

namespace Param

variable (style : OptionalStyle) (p : Param)

@[simp]
theorem maps_guard : (p.guard style).collect Expr.ownMap = [] := by
  unfold guard
  split
  · simp [ident, Expr.nil, Expr.collect, Expr.ownMap]
  · split <;> simp [ident, Expr.nil, Expr.zero, Expr.collect, Expr.ownMap]

@[simp]
theorem maps_wireValue : p.wireValue.collect Expr.ownMap = [] := by
  unfold wireValue
  split <;> simp [textForm, ident, Expr.collect, Expr.ownMap]

@[simp]
theorem maps_send : (p.send style).maps = [] := by
  simp [send, Stmt.maps, Stmt.fromExprs, Expr.collect, Expr.ownMap]

@[simp]
theorem keysWritten_send : (p.send style).keysWritten "params" = [p.wireName] := by
  simp [send, Stmt.keysWritten, Stmt.fromStmts, Stmt.ownKey]

end Param

theorem maps_returnStmts (code : CodeSettings) (result : Option Resolved) :
    (returnStmts code result).flatMap Stmt.maps = [] := by
  have hplaceholder : ∀ type, (placeholder type).collect Expr.ownMap = [] := by
    intro type
    cases type <;> simp [placeholder, Expr.collect, Expr.ownMap]
  have hvalue : ∀ s : Scalar, s.value.collect Expr.ownMap = [] := by
    intro s
    unfold Scalar.value
    split <;> simp [Expr.collect, Expr.ownMap]
  have hblock := returnBlock_returnStmts code result
  generalize returnStmts code result = block at hblock ⊢
  cases hblock <;>
    simp [Stmt.maps, Stmt.fromExprs, Scalar.take, failEarly, responseError, Expr.nil, Expr.collect,
      Expr.ownMap, hvalue, hplaceholder]

theorem keysWritten_returnStmts (code : CodeSettings) (result : Option Resolved) :
    (returnStmts code result).flatMap (Stmt.keysWritten "params") = [] := by
  have hblock := returnBlock_returnStmts code result
  generalize returnStmts code result = block at hblock ⊢
  cases hblock <;>
    simp [Stmt.keysWritten, Stmt.fromStmts, Stmt.ownKey, Scalar.take, failEarly]

namespace Method

variable (code : CodeSettings) (m : Method)

/-- What is found in the part of a body that collects the arguments. -/
theorem flatMap_collectArgs {α : Type} (f : Stmt → List α) (style : OptionalStyle) :
    (m.collectArgs style).flatMap f =
      if m.params.isEmpty then []
      else f (.define ["params"] (.mapOf .payload [])) ++
        m.params.flatMap fun p => f (p.send style) := by
  unfold collectArgs
  split
  · rfl
  · rw [List.flatMap_cons, List.flatMap_map]

/-- A body writes out the map of arguments, which is empty, and what the server is told. -/
theorem maps_stubBody :
    (m.stubBody code).flatMap Stmt.maps
      = (if m.params.isEmpty then [] else [[]]) ++ [m.payload] := by
  have hpayload : m.payload.flatMap
      (fun e => e.1.collect Expr.ownMap ++ e.2.collect Expr.ownMap) = [] := by
    unfold payload
    split <;> simp [Expr.collect, Expr.ownMap]
  have hsends : m.params.flatMap (fun p => (p.send code.optionalStyle).maps) = [] :=
    List.flatMap_eq_nil_iff.2 fun p _ => p.maps_send code.optionalStyle
  unfold stubBody
  simp only [List.flatMap_append, flatMap_collectArgs, maps_returnStmts, hsends]
  simp [Stmt.maps, Stmt.fromExprs, Expr.collect, Expr.ownMap, hpayload]

/-- The map of arguments is written to once for every parameter, under its declared name. -/
theorem keysWritten_stubBody :
    (m.stubBody code).flatMap (Stmt.keysWritten "params") = m.params.map Param.wireName := by
  unfold stubBody
  simp only [List.flatMap_append, flatMap_collectArgs, keysWritten_returnStmts,
    Param.keysWritten_send, ← List.map_eq_flatMap]
  cases m.params <;> simp [Stmt.keysWritten, Stmt.fromStmts, Stmt.ownKey]

theorem nodup_textKeys_payload : (Go.textKeys m.payload).Nodup := by
  unfold payload
  split <;> simp [Go.textKeys]

theorem names_of_ofInterface {registry : Registry} {owner : String} {declared : Interface.Method}
    {m : Method} (h : ofInterface registry owner declared = .ok m) :
    (∀ p ∈ m.params, p.goName = Identifier.param p.wireName) ∧
      (m.params.map Param.goName).Nodup := by
  obtain ⟨params, result, hparams, hunique, -, rfl⟩ := ofInterface_eq_ok_iff.1 h
  refine ⟨fun p hp => ?_, ensureUnique_eq_ok_iff.1 hunique⟩
  obtain ⟨f, -, hf⟩ := Outcome.exists_of_mem_right hparams hp
  exact (Param.names_of_ofField hf).2

end Method

/-! ## Constructors -/

/-- Something is filled in for a constructor parameter: a reference for a remote object, the default
    of a primitive value, or a default that is a text for an enumeration. -/
inductive FilledIn (r : Registry) (f : Interface.Field) : Prop
  | remote {t : Resolved} {className : String} (ht : Denotes r f.type t)
      (hrequired : t.required = .remote className)
  | primitive {t : Resolved} {p : Primitive} {default : Default} (ht : Denotes r f.type t)
      (hrequired : t.required = .primitive p) (hdefault : f.default = some default)
  | enum {t : Resolved} {name text : String} (ht : Denotes r f.type t)
      (hrequired : t.required = .enum name) (hdefault : f.default = some (.text text))

namespace Seed

theorem parts_of_ofField {registry : Registry} {owner : String} {f : Interface.Field} {s : Seed}
    (h : ofField registry owner f = .ok s) :
    s.wireName = f.name ∧ s.default = f.default ∧ Denotes registry f.type s.type := by
  obtain ⟨type, htype, hs⟩ := Outcome.bind_eq_ok_iff.1 h
  cases hs
  exact ⟨rfl, rfl, .of_ofType htype⟩

theorem isSome_value?_iff {registry : Registry} {owner : String} {f : Interface.Field} {s : Seed}
    (h : ofField registry owner f = .ok s) : s.value?.isSome = true ↔ FilledIn registry f := by
  obtain ⟨-, hdefault, hdenotes⟩ := parts_of_ofField h
  unfold value?
  rw [hdefault]
  constructor
  · intro hsome
    split at hsome
    · next hrequired => exact .remote hdenotes hrequired
    · next hrequired hd => exact .primitive hdenotes hrequired hd
    · next hrequired hd => exact .enum hdenotes hrequired hd
    · exact absurd hsome Bool.false_ne_true
  · rintro (⟨ht, hrequired⟩ | ⟨ht, hrequired, hd⟩ | ⟨ht, hrequired, hd⟩)
    · rw [hdenotes.unique ht, hrequired]
      rfl
    · rw [hdenotes.unique ht, hrequired, hd]
      rfl
    · rw [hdenotes.unique ht, hrequired, hd]
      rfl

/-- What is filled in holds no further map. -/
theorem maps_entry? {s : Seed} {entry : Expr × Expr} (h : s.entry? = some entry) :
    entry.1.collect Expr.ownMap ++ entry.2.collect Expr.ownMap = [] := by
  obtain ⟨value, hvalue, rfl⟩ := Option.map_eq_some_iff.1 h
  unfold value? at hvalue
  split at hvalue
  all_goals cases hvalue
  all_goals simp [textForm, Expr.collect, Expr.ownMap]

end Seed

theorem maps_constructorBody (seeds : List Seed) :
    (constructorBody seeds).flatMap Stmt.maps =
      if seeds.isEmpty then [] else [seeds.filterMap Seed.entry?] := by
  have hentries : (seeds.filterMap Seed.entry?).flatMap
      (fun e => e.1.collect Expr.ownMap ++ e.2.collect Expr.ownMap) = [] := by
    refine List.flatMap_eq_nil_iff.2 fun entry hentry => ?_
    obtain ⟨s, -, hs⟩ := List.mem_filterMap.1 hentry
    exact Seed.maps_entry? hs
  unfold constructorBody
  split
  · simp [Stmt.maps, Stmt.fromExprs, Expr.collect, Expr.ownMap]
  · simp [Stmt.maps, Stmt.fromExprs, Expr.collect, Expr.ownMap, hentries]

theorem keysWritten_constructorBody (seeds : List Seed) :
    (constructorBody seeds).flatMap (Stmt.keysWritten "params") = [] := by
  unfold constructorBody
  split <;> simp [Stmt.keysWritten, Stmt.fromStmts, Stmt.ownKey]

/-- The keys of the map differ exactly if the parameters that are filled in have different names. -/
theorem nodup_textKeys_entries_iff {registry : Registry} {owner : String}
    {fields : List Interface.Field} {seeds : List Seed}
    (h : List.Forall₂ (fun f s => Seed.ofField registry owner f = .ok s) fields seeds) :
    (Go.textKeys (seeds.filterMap Seed.entry?)).Nodup ↔
      fields.Pairwise fun f g => FilledIn registry f → FilledIn registry g → f.name ≠ g.name := by
  have hkey : ∀ s : Seed, (s.entry?.bind fun e => e.1.text?)
      = if s.value?.isSome then some s.wireName else none := by
    intro s
    unfold Seed.entry?
    cases s.value? <;> rfl
  rw [Go.textKeys, List.filterMap_filterMap, List.Nodup, List.pairwise_filterMap]
  refine (Outcome.pairwise_iff_of_forall₂ h fun f s g s' hs hs' => ?_).symm
  simp only [hkey, ← Seed.isSome_value?_iff hs, ← Seed.isSome_value?_iff hs',
    ← (Seed.parts_of_ofField hs).1, ← (Seed.parts_of_ofField hs').1]
  cases s.value?.isSome <;> cases s'.value?.isSome <;> simp

/-! ## Classes -/

/-- **Where keys of maps differ.** In every function of a class all assignments to the map of
    arguments have different keys, and every map of a method that is written out has different keys.
    All maps of the class do exactly if no two constructor parameters that are filled in have the
    same name. -/
theorem map_keys_distinct_iff {registry : Registry} {code : CodeSettings} {c : Interface.Class}
    {u : CodeUnit} (h : classUnit registry code c = .ok u) :
    (∀ f, .func f ∈ u.decls → (f.body.flatMap (Stmt.keysWritten "params")).Nodup) ∧
    (∀ f, .func f ∈ u.decls → f.name ≠ "getConstructorParams" →
      ∀ entries ∈ f.body.flatMap Stmt.maps, (Go.textKeys entries).Nodup) ∧
    ((∀ f, .func f ∈ u.decls →
        ∀ entries ∈ f.body.flatMap Stmt.maps, (Go.textKeys entries).Nodup) ↔
      c.constructorParams.Pairwise fun f g =>
        FilledIn registry f → FilledIn registry g → f.name ≠ g.name) := by
  obtain ⟨methods, properties, seeds, hmethods, -, -, hseeds, rfl⟩ := classUnit_eq_ok_iff.1 h
  simp only [func_mem_classDecls_iff]
  -- the keys of a method are fixed texts, so only the constructor can repeat one
  have hstub : ∀ m : Method, ∀ entries ∈ (m.stub code c.name).body.flatMap Stmt.maps,
      (Go.textKeys entries).Nodup := by
    intro m entries hentries
    rw [Method.stub, m.maps_stubBody code] at hentries
    rcases List.mem_append.1 hentries with hempty | hpayload
    · split at hempty
      · exact absurd hempty List.not_mem_nil
      · rw [List.mem_singleton.1 hempty]
        exact List.nodup_nil
    · rw [List.mem_singleton.1 hpayload]
      exact m.nodup_textKeys_payload
  have hconstructor : (∀ entries ∈ (constructorFunc code c.name seeds).body.flatMap Stmt.maps,
      (Go.textKeys entries).Nodup) ↔ (Go.textKeys (seeds.filterMap Seed.entry?)).Nodup := by
    rw [constructorFunc, maps_constructorBody]
    cases seeds with
    | nil => simp [Go.textKeys]
    | cons s seeds => simp
  refine ⟨?_, ?_, ?_⟩
  · rintro f (rfl | ⟨m, hm, rfl⟩)
    · rw [constructorFunc, keysWritten_constructorBody]
      exact List.nodup_nil
    · obtain ⟨declared, -, hdeclared⟩ := Outcome.exists_of_mem_right hmethods hm
      obtain ⟨hgo, hnames⟩ := Method.names_of_ofInterface hdeclared
      rw [Method.stub, m.keysWritten_stubBody code]
      exact Method.nodup_wireName hgo hnames
  · rintro f (rfl | ⟨m, -, rfl⟩) hname
    · exact absurd rfl hname
    · exact hstub m
  · rw [← nodup_textKeys_entries_iff hseeds, ← hconstructor]
    constructor
    · intro hall
      exact hall _ (Or.inl rfl)
    · rintro hall f (rfl | ⟨m, -, rfl⟩)
      · exact hall
      · exact hstub m

/-- A class whose constructor takes texts. -/
def playerOf (names : List String) : Interface.Class where
  name := "Player"
  doc := []
  base := none
  properties := []
  methods := []
  constructorParams := names.map fun name => ⟨name, .primitive .text, some (.text ""), []⟩

/-- Such a class is rendered, whatever the names of its parameters are. -/
theorem exists_classUnit_playerOf (names : List String) :
    ∃ u, classUnit .empty .default (playerOf names) = .ok u ∧
      .func (constructorFunc .default "Player"
        (names.map fun name => ⟨name, .primitive .text, some (.text "")⟩)) ∈ u.decls := by
  refine ⟨_, classUnit_eq_ok_iff.2 ⟨[], [], names.map fun name => ⟨name, .primitive .text,
    some (.text "")⟩, .nil, .nil, rfl, ?_, rfl⟩, func_mem_classDecls_iff.2 (Or.inl rfl)⟩
  rw [playerOf, List.forall₂_map_left_iff, List.forall₂_map_right_iff]
  exact List.forall₂_same.2 fun _ _ => rfl

theorem player_map_keys_distinct :
    ∃ u, classUnit .empty .default (playerOf ["uri", "title"]) = .ok u ∧
      ∀ f, .func f ∈ u.decls →
        ∀ entries ∈ f.body.flatMap Stmt.maps, (Go.textKeys entries).Nodup := by
  obtain ⟨u, hu, -⟩ := exists_classUnit_playerOf ["uri", "title"]
  refine ⟨u, hu, (map_keys_distinct_iff hu).2.2.2 ?_⟩
  simp [playerOf]

/-- With two parameters of one name there is a map with a key twice. -/
theorem player_map_key_repeated : ∃ u f entries,
    classUnit .empty .default (playerOf ["uri", "uri"]) = .ok u ∧ .func f ∈ u.decls ∧
      entries ∈ f.body.flatMap Stmt.maps ∧ Go.textKeys entries = ["uri", "uri"] := by
  obtain ⟨u, hu, hfunc⟩ := exists_classUnit_playerOf ["uri", "uri"]
  refine ⟨u, _, [(.string "uri", .string ""), (.string "uri", .string "")], hu, hfunc, ?_, rfl⟩
  rw [constructorFunc, maps_constructorBody]
  exact List.mem_singleton_self _

end Binding

end GoBindings
