import GoBindings.Proofs.StructFields

set_option autoImplicit false

/-! # No name is declared twice

A package has one space of names for its types and constants, and every struct has one for its
fields and methods. The first is watched over by one check for the whole package
(`ensurePackageNamesUnique_eq_error_iff` says what it reports). The second is watched over by a
check for each declaration, which sees only the names that a description asks for. Two more are
added to a class, `connection` and `getConstructorParams`; an exported name is never one of them,
but a base may be, since it keeps its name as it is written. -/

namespace GoBindings

open Binding

/-! ## Names of the package -/

namespace Binding

/-- The names that units add to the package, in order, each with its unit. -/
def namesByUnit (modules : List ModuleUnits) : List (String × String) :=
  (modules.flatMap fun m => m.types ++ m.classes).flatMap CodeUnit.packageNames

/-- The clash that is reported is at the first name that has come before, there or among
    `declared`. -/
theorem firstClash_eq_some_iff {declared names : List (String × String)}
    (hdeclared : (declared.map Prod.fst).Nodup) {name unit first : String} :
    firstClash declared names = some (name, unit, first) ↔
      ∃ before after, names = before ++ (name, unit) :: after ∧ (before.map Prod.fst).Nodup ∧
        (declared.map Prod.fst).Disjoint (before.map Prod.fst) ∧
        (name, first) ∈ declared ++ before := by
  induction names generalizing declared with
  | nil => simp [firstClash]
  | cons d names ih =>
    obtain ⟨n, u⟩ := d
    rw [firstClash]
    cases hfound : declared.lookup n with
    | some earlier =>
      have hmem : (n, earlier) ∈ declared := (lookup_eq_some_iff_mem hdeclared).1 hfound
      constructor
      · intro h
        obtain ⟨rfl, rfl, rfl⟩ : n = name ∧ u = unit ∧ earlier = first := by simpa using h
        exact ⟨[], names, rfl, List.nodup_nil, List.disjoint_nil_right _,
          List.mem_append_left _ hmem⟩
      · rintro ⟨before, after, hsplit, -, hapart, hfirst⟩
        cases before with
        | nil =>
          obtain ⟨⟨rfl, rfl⟩, -⟩ : (n = name ∧ u = unit) ∧ names = after := by simpa using hsplit
          rw [List.append_nil, ← lookup_eq_some_iff_mem hdeclared, hfound] at hfirst
          rw [Option.some.inj hfirst]
        | cons b before =>
          -- the first name is declared, so it cannot come before the clash
          obtain ⟨rfl, -⟩ : (n, u) = b ∧ names = before ++ (name, unit) :: after := by
            simpa using hsplit
          exact absurd List.mem_cons_self (hapart (List.mem_map.2 ⟨_, hmem, rfl⟩))
    | none =>
      have hnew : n ∉ declared.map Prod.fst := lookup_eq_none_iff_not_mem.1 hfound
      have hnodup : (((n, u) :: declared).map Prod.fst).Nodup := List.nodup_cons.2 ⟨hnew, hdeclared⟩
      show firstClash ((n, u) :: declared) names = _ ↔ _
      rw [ih hnodup]
      constructor
      · rintro ⟨before, after, rfl, honce, hapart, hfirst⟩
        rw [List.map_cons, List.disjoint_cons_left] at hapart
        refine ⟨(n, u) :: before, after, rfl, List.nodup_cons.2 ⟨hapart.1, honce⟩, ?_, ?_⟩
        · exact List.disjoint_cons_right.2 ⟨hnew, hapart.2⟩
        · simp only [List.mem_append, List.mem_cons] at hfirst ⊢
          tauto
      · rintro ⟨before, after, hsplit, honce, hapart, hfirst⟩
        cases before with
        | nil =>
          obtain ⟨⟨rfl, rfl⟩, -⟩ : (n = name ∧ u = unit) ∧ names = after := by simpa using hsplit
          rw [List.append_nil] at hfirst
          exact absurd (List.mem_map.2 ⟨_, hfirst, rfl⟩) hnew
        | cons b before =>
          obtain ⟨rfl, rfl⟩ : (n, u) = b ∧ names = before ++ (name, unit) :: after := by
            simpa using hsplit
          rw [List.map_cons, List.nodup_cons] at honce
          rw [List.map_cons, List.disjoint_cons_right] at hapart
          refine ⟨before, after, rfl, honce.2, ?_, ?_⟩
          · exact List.disjoint_cons_left.2 ⟨honce.1, hapart.2⟩
          · simp only [List.mem_append, List.mem_cons] at hfirst ⊢
            tauto

/-- **The check for the package** fails exactly if a name comes a second time, and tells the first
    such name, the unit that declares it again, and the unit that has declared it before. -/
theorem ensurePackageNamesUnique_eq_error_iff {modules : List ModuleUnits} {failure : Failure} :
    ensurePackageNamesUnique modules = .error failure ↔
      ∃ before name unit after first, namesByUnit modules = before ++ (name, unit) :: after ∧
        (before.map Prod.fst).Nodup ∧ (name, first) ∈ before ∧
        failure = .unrenderable unit (.taken name first) := by
  have hclash : ∀ name unit first, firstClash [] (namesByUnit modules) = some (name, unit, first) ↔
      ∃ before after, namesByUnit modules = before ++ (name, unit) :: after ∧
        (before.map Prod.fst).Nodup ∧ (name, first) ∈ before := by
    intro name unit first
    rw [firstClash_eq_some_iff (by simp)]
    simp
  have hnames : (modules.flatMap fun m => m.types ++ m.classes).flatMap CodeUnit.packageNames
      = namesByUnit modules := rfl
  simp only [ensurePackageNamesUnique, hnames]
  constructor
  · intro h
    split at h
    · next name unit first hfound =>
      obtain ⟨before, after, hsplit, honce, hfirst⟩ := (hclash name unit first).1 hfound
      exact ⟨before, name, unit, after, first, hsplit, honce, hfirst, (Except.error.inj h).symm⟩
    · exact absurd h (by simp)
  · rintro ⟨before, name, unit, after, first, hsplit, honce, hfirst, rfl⟩
    rw [(hclash name unit first).2 ⟨before, after, hsplit, honce, hfirst⟩]

end Binding

namespace Compilation.Run

variable {s : Settings} {sources : List Source}

theorem nodup_packageNames (run : Run s sources) :
    (run.decls.flatMap Go.Decl.packageNames).Nodup := by
  refine List.Perm.nodup ?_ run.names_once
  rw [run.decls_eq_flatMap, List.flatMap_assoc]
  unfold units packageNames
  rw [List.flatMap_assoc, List.flatMap_map]
  refine List.Perm.flatMap_left _ fun p _ => ?_
  rw [List.flatMap_append, List.flatMap_append]
  exact List.perm_append_comm

end Compilation.Run

/-! ## Names of a struct -/

/-- The fields and methods of a type go by different names, or it embeds a type that has the name of
    its constructor function and no two others go by one name. -/
def Go.MembersApart (decls : List Go.Decl) (type : String) : Prop :=
  ((Go.ownMembers decls type).map Prod.fst).Nodup ∨
    (Go.embeddedIn decls type = ["getConstructorParams"] ∧
      (((Go.ownMembers decls type).map Prod.fst).erase "getConstructorParams").Nodup)

namespace Binding

/-- The fields of a record go by the name of its base and by names of properties. -/
theorem filterMap_goesBy?_record {registry : Registry} {style : OptionalStyle} {owner : String}
    {base : Option String} {fields : List Interface.Field} {own : List Go.Field}
    (h : List.Forall₂ (fun f g => propertyField registry style owner f = .ok g) fields own) :
    (base.toList.map embedded ++ own).filterMap Go.Field.goesBy?
      = base.toList ++ own.filterMap Go.Field.name := by
  have hbase : (base.toList.map embedded).filterMap Go.Field.goesBy? = base.toList := by
    cases base with
    | none => rfl
    | some base => rfl
  have hown : own.filterMap Go.Field.goesBy? = own.filterMap Go.Field.name := by
    refine List.filterMap_congr fun g hg => ?_
    obtain ⟨f, -, hf⟩ := Outcome.exists_of_mem_right h hg
    obtain ⟨type, -, hg⟩ := Outcome.bind_eq_ok_iff.1 hf
    cases hg
    rfl
  rw [List.filterMap_append, hbase, hown]

end Binding

namespace Compilation

variable {s : Settings} {sources : List Source}

/-- A class adds two names to those that its description asks for. -/
theorem ClassCode.membersApart {run : Run s sources} {c : Schema.RemoteClass}
    (k : ClassCode run c) : Go.MembersApart run.decls c.name := by
  have honce := k.members_once
  have hupper : ∀ name ∈ (c.properties.map fun p => Identifier.exported p.name) ++
      c.methods.map fun m => Identifier.exported m.name, Identifier.StartsUpper name := by
    intro name hname
    rcases List.mem_append.1 hname with hname | hname
    · obtain ⟨p, -, rfl⟩ := List.mem_map.1 hname
      exact Identifier.startsUpper_exported p.name
    · obtain ⟨m, -, rfl⟩ := List.mem_map.1 hname
      exact Identifier.startsUpper_exported m.name
  unfold Schema.RemoteClass.memberNames at honce
  rw [Go.MembersApart, k.map_fst_ownMembers, k.embeddedIn_eq]
  generalize (c.properties.map fun p => Identifier.exported p.name) = properties at honce hupper ⊢
  generalize (c.methods.map fun m => Identifier.exported m.name) = methods at honce hupper ⊢
  have hconnection : "connection" ∉ properties ++ methods :=
    fun hmem => (hupper _ hmem).ne (by decide) rfl
  have hconstructor : "getConstructorParams" ∉ properties ++ methods :=
    fun hmem => (hupper _ hmem).ne (by decide) rfl
  -- the constructor function comes between properties and methods
  have hmiddle : ∀ names : List String, (names ++ (properties ++ methods)).Nodup →
      "getConstructorParams" ∉ names →
        (names ++ (properties ++ "getConstructorParams" :: methods)).Nodup := by
    intro names hnames hnew
    rw [← List.append_assoc, List.nodup_middle, List.append_assoc, List.nodup_cons]
    exact ⟨by simpa using ⟨hnew, by simpa using hconstructor⟩, hnames⟩
  cases hbase : c.base with
  | none =>
    rw [hbase] at honce
    left
    refine hmiddle ["connection"] ?_ (by decide)
    exact List.nodup_cons.2 ⟨hconnection, by simpa using honce⟩
  | some base =>
    rw [hbase] at honce
    by_cases hname : base = "getConstructorParams"
    · right
      subst hname
      refine ⟨rfl, ?_⟩
      rw [Option.getD_some, List.cons_append, List.erase_cons_head]
      refine hmiddle [] ?_ List.not_mem_nil
      exact (List.nodup_cons.1 (by simpa using honce)).2
    · left
      refine hmiddle [base] ?_ ?_
      · simpa using honce
      · simpa [eq_comm] using hname

theorem Run.nodup_members_of_record (run : Run s sources) {u : CodeUnit} (hu : u ∈ run.units)
    {t : Interface.DataType} (hunit : typeUnit run.registry s.code t = .ok u)
    {base : Option String} {fields : List Interface.Field}
    (hdecls : recordDecls run.registry s.code.optionalStyle t base fields = .ok u.decls) :
    ((Go.ownMembers run.decls t.name).map Prod.fst).Nodup := by
  obtain ⟨own, hown, hunique, hu_decls⟩ := recordDecls_eq_ok_iff.1 hdecls
  have hname : u.name = t.name := by
    obtain ⟨decls, rfl, -⟩ := typeUnit_eq_ok_iff.1 hunit
    rfl
  have hfields : run.decls.flatMap (Go.Decl.fieldsOf t.name)
      = base.toList.map embedded ++ own := by
    rw [run.flatMap_decls hu fun v hv hne d hd => Go.Decl.fieldsOf_eq_nil ?_, hu_decls]
    · simp [Go.Decl.fieldsOf]
    · rintro d rfl
      refine run.name_ne_of_mem_units hu hv hne ?_ hd
      rw [declaredTypes_typeUnit hunit]
      exact List.mem_cons_self
  have hmethods : run.decls.flatMap (Go.Decl.methodsOf t.name) = [] := by
    rw [run.flatMap_decls hu fun v hv hne d hd => Go.Decl.methodsOf_eq_nil ?_, hu_decls]
    · rfl
    · rintro f rfl heq
      rw [run.receiver_of_mem_units hv hd] at heq
      exact hne ((Option.some.inj heq).trans hname.symm)
  rw [ensureUnique_eq_ok_iff, ← filterMap_goesBy?_record hown] at hunique
  rw [Go.ownMembers, hfields, hmethods, List.map_nil, List.append_nil, List.map_filterMap]
  simpa [Function.comp_def] using hunique

/-- Every struct of a run keeps its members apart. -/
theorem Run.membersApart_of_struct (run : Run s sources) {doc : List String} {name : String}
    {fields : List Go.Field} (h : Go.Decl.type ⟨doc, name, .struct fields⟩ ∈ run.decls) :
    Go.MembersApart run.decls name := by
  rw [run.decls_eq_flatMap] at h
  obtain ⟨u, hu, hmem⟩ := List.mem_flatMap.1 h
  obtain ⟨p, hp, hkind⟩ := List.mem_flatMap.1 hu
  rcases List.mem_append.1 hkind with hclass | htype
  · obtain ⟨c, hc, k, hk, hunit⟩ := Outcome.exists_of_mem_right (run.forall₂_classes hp) hclass
    obtain ⟨methods, properties, seeds, -, -, -, -, rfl⟩ := classUnit_eq_ok_iff.1 hunit
    obtain ⟨hname, -⟩ := eq_classStruct_of_mem hmem
    rw [(Interface.Class.name_base_of_ofSchema hk).1] at hname
    have hsource : p.source ∈ sources := run.source_parts ▸ List.mem_map_of_mem hp
    obtain ⟨code⟩ := run.nonempty_classCode ⟨p.source, hsource, hc⟩
    rw [hname]
    exact code.membersApart
  · obtain ⟨htypes, -⟩ := ModuleUnits.ofModule_eq_ok_iff.1 (run.made p hp).coded
    obtain ⟨t, -, hunit⟩ := Outcome.exists_of_mem_right htypes htype
    obtain ⟨rfl, base, own, -, hdecls⟩ := record_of_struct_mem hunit hmem
    exact Or.inl (run.nodup_members_of_record hu hunit hdecls)

theorem ClassCode.exists_struct_mem {run : Run s sources} {c : Schema.RemoteClass}
    (k : ClassCode run c) :
    ∃ doc fields, Go.Decl.type ⟨doc, c.name, .struct fields⟩ ∈ run.decls := by
  refine ⟨k.declared.doc, classHead k.declared.base :: k.properties, ?_⟩
  rw [run.decls_eq_flatMap, ← k.name_eq]
  refine List.mem_flatMap.2 ⟨k.unit, k.unit_mem, ?_⟩
  rw [k.unit_decls]
  simp [classDecls, classStruct]

/-- **No name is declared twice.** In the code of a successful run all names of the package are
    different, and so are the names of the fields and methods of every struct, but for a base that
    is called `getConstructorParams`. The check for the package fails only if two declarations have
    one name; it then reports the first name that comes again, with the unit that declares it there
    and the unit that declared it first. -/
theorem declares_no_name_twice (s : Settings) (sources : List Source) :
    (∀ files, (compileSources s sources).result = .ok files →
      ∃ run : Run s sources, run.files = files ∧
        (run.decls.flatMap Go.Decl.packageNames).Nodup ∧
        ∀ doc name fields, Go.Decl.type ⟨doc, name, .struct fields⟩ ∈ run.decls →
          Go.MembersApart run.decls name) ∧
    ∀ (modules : List ModuleUnits) (failure : Failure),
      ensurePackageNamesUnique modules = .error failure ↔
        ∃ before name unit after first, namesByUnit modules = before ++ (name, unit) :: after ∧
          (before.map Prod.fst).Nodup ∧ (name, first) ∈ before ∧
          failure = .unrenderable unit (.taken name first) := by
  refine ⟨fun files h => ?_, fun modules failure => ensurePackageNamesUnique_eq_error_iff⟩
  obtain ⟨run, rfl⟩ := result_compileSources_eq_ok_iff.1 h
  refine ⟨run, rfl, run.nodup_packageNames, fun doc name fields hstruct => ?_⟩
  exact run.membersApart_of_struct hstruct

/-- A type that has the name of a constant of another one. -/
def colorUnits : List ModuleUnits := [
  { classes := []
    types := [
      { name := "Color", imports := []
        decls := [.consts [⟨"COLOR_RED", "Color", .string "red"⟩]] },
      { name := "COLOR_RED", imports := []
        decls := [.type ⟨[], "COLOR_RED", .struct []⟩] }] }]

theorem player_declares_no_name_twice :
    (∃ run : Run .default playerSources, (run.decls.flatMap Go.Decl.packageNames).Nodup ∧
      Go.MembersApart run.decls "Player") ∧
    ensurePackageNamesUnique colorUnits
      = .error (.unrenderable "COLOR_RED" (.taken "COLOR_RED" "Color")) := by
  obtain ⟨hruns, hcheck⟩ := declares_no_name_twice .default playerSources
  constructor
  · obtain ⟨files, h⟩ : ∃ files, (compileSources .default playerSources).result = .ok files :=
      Outcome.exists_eq_ok_of_isOk (by decide +kernel)
    obtain ⟨run, -, hnames, hstructs⟩ := hruns files h
    have hplayer : Source.HasClass playerSources _ := ⟨_, List.mem_cons_self, List.mem_cons_self⟩
    obtain ⟨k⟩ := run.nonempty_classCode hplayer
    obtain ⟨doc, fields, hmem⟩ := k.exists_struct_mem
    exact ⟨run, hnames, hstructs doc "Player" fields hmem⟩
  · refine (hcheck colorUnits _).2 ⟨[("COLOR_RED", "Color")], "COLOR_RED", "COLOR_RED", [], "Color",
      rfl, by decide, List.mem_cons_self, rfl⟩

end Compilation

end GoBindings
