import GoBindings.Proofs.ClassCode

set_option autoImplicit false

/-! # Capabilities along a lineage

The interface of a class embeds that of its base, unless the base is the root. Following the bases
comes to an end (`exists_lineage`), so the interface of a class can be expanded, and what it has are
the methods of the class and of all classes of its lineage (`Lineage.exists_expand`). -/

namespace GoBindings

open Binding

/-! ## Lineages -/

/-- A class, its base, the base of that, and so on, as long as there is a base and it is not the
    root. -/
inductive Lineage (sources : List Source) (root : String) :
    Schema.RemoteClass → List Schema.RemoteClass → Prop
  | top {c : Schema.RemoteClass} (h : c.base = none) : Lineage sources root c [c]
  | root {c : Schema.RemoteClass} (h : c.base = some root) : Lineage sources root c [c]
  | step {c d : Schema.RemoteClass} {ds : List Schema.RemoteClass} (h : c.base = some d.name)
      (hd : Source.HasClass sources d) (hroot : d.name ≠ root) (rest : Lineage sources root d ds) :
      Lineage sources root c (c :: ds)

namespace Registry

/-- A class stands for its name. -/
theorem winning_of_hasClass {sources : List Source} {c : Schema.RemoteClass}
    (hc : Source.HasClass sources c) :
    ∃ entry, Winning sources c.name entry ∧ entry.kind = .remote ∧ entry.base = c.base := by
  obtain ⟨source, hsource, hc⟩ := hc
  obtain ⟨k, hk⟩ := List.mem_iff_getElem?.1 hsource
  obtain ⟨i, hi⟩ := List.mem_iff_getElem?.1 hc
  exact ⟨classEntry source.path i c, Winning.remote hk hi, rfl, rfl⟩

theorem Winning.exists_class {sources : List Source} {name : String} {entry : Entry}
    (h : Winning sources name entry) (hkind : entry.kind = .remote) :
    ∃ c, Source.HasClass sources c ∧ c.name = name := by
  have hmem := h.mem_classNames_of_kind hkind
  obtain ⟨source, hsource, hname⟩ := List.mem_flatMap.1 hmem
  obtain ⟨c, hc, hname⟩ := List.mem_map.1 hname
  exact ⟨c, ⟨source, hsource, hc⟩, hname⟩

end Registry

namespace Compilation

variable {s : Settings} {sources : List Source}

/-- The base of a class is a class. -/
theorem Run.exists_baseClass (run : Run s sources) {c : Schema.RemoteClass}
    (hc : Source.HasClass sources c) {base : String} (hbase : c.base = some base) :
    (∃ d, Source.HasClass sources d ∧ d.name = base) ∧
      Registry.Extends run.registry.Has c.name base := by
  obtain ⟨entry, hentry, hkind, heq⟩ := Registry.winning_of_hasClass hc
  have hsome : entry.base = some base := heq.trans hbase
  obtain ⟨found, hfound, hsame⟩ := (Registry.acceptable_of_build run.built).bases_declared c.name
    entry base hentry (by rw [hkind]; exact Kind.noConfusion) hsome
  refine ⟨hfound.exists_class (hsame.trans hkind), entry, ?_, hsome⟩
  rw [Registry.has_of_build run.built]
  exact hentry

/-- Every class has a lineage: no chain of bases goes on for ever. -/
theorem Run.exists_lineage (run : Run s sources) (root : String) {c : Schema.RemoteClass}
    (hc : Source.HasClass sources c) : ∃ chain, Lineage sources root c chain := by
  induction hname : c.name using (Registry.wellFounded_of_build run.built).induction
    generalizing c with
  | _ name ih =>
    subst hname
    cases hbase : c.base with
    | none => exact ⟨[c], .top hbase⟩
    | some base =>
      by_cases hroot : base = root
      · exact ⟨[c], .root (hroot ▸ hbase)⟩
      · obtain ⟨⟨d, hd, rfl⟩, hextends⟩ := run.exists_baseClass hc hbase
        obtain ⟨chain, hchain⟩ := ih d.name hextends hd rfl
        exact ⟨c :: chain, .step hbase hd hroot hchain⟩

/-! ## Interfaces of a lineage -/

/-- What the interface of a class comes to. -/
structure Expansion (run : Run s sources) (chain : List Schema.RemoteClass)
    (met : List Go.Interface) : Prop where
  names : met.map Go.Interface.name = chain.map fun d => capabilityName d.name
  declared_once : ∀ i ∈ met, (run.decls.flatMap Go.Decl.declaredTypes).count i.name = 1
  methods : List.Forall₂ (HasSignature run.registry s.code)
    (chain.flatMap Schema.RemoteClass.methods) (met.flatMap Go.Interface.methods)

theorem ClassCode.count_capability {run : Run s sources} {c : Schema.RemoteClass}
    (k : ClassCode run c) (hroot : c.name ≠ s.code.rootClass) :
    (run.decls.flatMap Go.Decl.declaredTypes).count (capabilityName c.name) = 1 := by
  rw [run.declaredTypes_decls]
  refine List.count_eq_one_of_mem run.nodup_declaredTypes_units ?_
  refine List.mem_flatMap.2 ⟨k.unit, k.unit_mem, ?_⟩
  rw [k.declaredTypes_unit, classTypes, if_neg hroot]
  exact List.mem_cons_self

theorem Expansion.nil (run : Run s sources) : Expansion run [] [] :=
  ⟨rfl, fun _ hi => absurd hi List.not_mem_nil, .nil⟩

/-- One class more at the lower end of a lineage adds its own interface. -/
theorem Expansion.cons {run : Run s sources} {c : Schema.RemoteClass} (k : ClassCode run c)
    (hroot : c.name ≠ s.code.rootClass) {chain : List Schema.RemoteClass}
    {met : List Go.Interface} (h : Expansion run chain met) :
    Expansion run (c :: chain) (k.capability :: met) := by
  refine ⟨?_, ?_, ?_⟩
  · rw [List.map_cons, List.map_cons, h.names]
    rfl
  · intro i hi
    rcases List.mem_cons.1 hi with rfl | hi
    · exact k.count_capability hroot
    · exact h.declared_once i hi
  · rw [List.flatMap_cons, List.flatMap_cons]
    exact List.rel_append k.signatures h.methods

/-- At the upper end of a lineage an interface embeds nothing. -/
theorem exists_expansion_of_leaf (run : Run s sources) {c : Schema.RemoteClass}
    (hc : Source.HasClass sources c) (hroot : c.name ≠ s.code.rootClass)
    (hbase : c.base.toList.filter (fun base => base != s.code.rootClass) = []) :
    ∃ met, Expansion run [c] met ∧ ∀ depth, [c].length ≤ depth →
      Go.expand run.decls depth (capabilityName c.name) = some met := by
  obtain ⟨k⟩ := run.nonempty_classCode hc
  refine ⟨[k.capability], .cons k hroot (.nil run), fun depth hdepth => ?_⟩
  obtain ⟨d, rfl⟩ := Nat.exists_eq_add_of_le' hdepth
  refine Go.expand_of_leaf (k.interfacesNamed_eq hroot) ?_ d
  rw [ClassCode.capability, hbase, List.map_nil]

/-- **The interface of a class expands along its lineage**, which is what the induction is on. -/
theorem exists_expansion (run : Run s sources) {c : Schema.RemoteClass}
    {chain : List Schema.RemoteClass} (hchain : Lineage sources s.code.rootClass c chain)
    (hc : Source.HasClass sources c) (hroot : c.name ≠ s.code.rootClass) :
    ∃ met, Expansion run chain met ∧ ∀ depth, chain.length ≤ depth →
      Go.expand run.decls depth (capabilityName c.name) = some met := by
  induction hchain with
  | top hbase => exact exists_expansion_of_leaf run hc hroot (by simp [hbase])
  | root hbase => exact exists_expansion_of_leaf run hc hroot (by simp [hbase])
  | @step c d ds hbase hd hdroot _ ih =>
    obtain ⟨met, hmet, hexpand⟩ := ih hd hdroot
    obtain ⟨k⟩ := run.nonempty_classCode hc
    refine ⟨k.capability :: met, .cons k hroot hmet, fun depth hdepth => ?_⟩
    rw [List.length_cons] at hdepth
    obtain ⟨n, rfl⟩ : ∃ n, depth = n + 1 := Nat.exists_eq_add_of_le' (by omega)
    refine Go.expand_of_embeds (k.interfacesNamed_eq hroot) ?_ (hexpand n (by omega))
    simp [ClassCode.capability, hbase, hdroot]

/-- **Capabilities along a lineage.** In the code of a successful run, the interface of every class
    but the root can be expanded. Every interface that is met is declared once; they are those of
    the lineage of the class, from the class upwards; and together they have one method for each
    method of these classes, with the signature of its description, and no other. -/
theorem capability_has_methods_of_lineage {s : Settings} {sources : List Source}
    {files : List OutputFile} (h : (compileSources s sources).result = .ok files) :
    ∃ run : Run s sources, run.files = files ∧
      files.map OutputFile.contents = run.goFiles.map Go.File.print ∧
      ∀ c, Source.HasClass sources c → c.name ≠ s.code.rootClass →
        (∃ chain, Lineage sources s.code.rootClass c chain) ∧
        ∀ chain, Lineage sources s.code.rootClass c chain →
          ∃ met, (∀ depth, chain.length ≤ depth →
              Go.expand run.decls depth (capabilityName c.name) = some met) ∧
            met.map Go.Interface.name = (chain.map fun d => capabilityName d.name) ∧
            (∀ i ∈ met, (run.decls.flatMap Go.Decl.declaredTypes).count i.name = 1) ∧
            List.Forall₂ (HasSignature run.registry s.code)
              (chain.flatMap Schema.RemoteClass.methods) (met.flatMap Go.Interface.methods) := by
  obtain ⟨run, rfl⟩ := result_compileSources_eq_ok_iff.1 h
  refine ⟨run, rfl, run.contents_files, fun c hc hroot => ⟨run.exists_lineage _ hc, ?_⟩⟩
  intro chain hchain
  obtain ⟨met, hmet, hexpand⟩ := exists_expansion run hchain hc hroot
  exact ⟨met, hexpand, hmet.names, hmet.declared_once, hmet.methods⟩

/-! ## An example -/

def mediaObjectClass : Schema.RemoteClass where
  name := "MediaObject"
  doc := ""
  baseText := none
  properties := []
  methods := []
  events := []
  constructor := none

def connectMethod : Schema.Method where
  name := "connect"
  doc := ""
  params := [⟨"sink", "Element", "", false, none⟩]
  result := none

def elementClass : Schema.RemoteClass where
  name := "Element"
  doc := ""
  baseText := some "MediaObject"
  properties := []
  methods := [connectMethod]
  events := []
  constructor := none

def playerClass : Schema.RemoteClass where
  name := "Player"
  doc := ""
  baseText := some "Element"
  properties := [⟨"volume", "float", "", false, none⟩]
  methods := [
    { name := "seek", doc := "", params := [⟨"to", "int64", "", true, none⟩]
      result := some ⟨"boolean", ""⟩ }]
  events := []
  constructor := none

/-- A chain of three classes in two sources. -/
def elementSources : List Source := [
  { path := ⟨"player.kmd.json"⟩
    document := { remoteClasses := [playerClass], complexTypes := [] } },
  { path := ⟨"core.kmd.json"⟩
    document := { remoteClasses := [mediaObjectClass, elementClass], complexTypes := [] } }]

theorem hasClass_player : Source.HasClass elementSources playerClass :=
  ⟨_, List.mem_cons_self, List.mem_cons_self⟩

theorem hasClass_element : Source.HasClass elementSources elementClass :=
  ⟨_, List.mem_cons_of_mem _ List.mem_cons_self, List.mem_cons_of_mem _ List.mem_cons_self⟩

/-- The lineage ends below the root. -/
theorem lineage_player :
    Lineage elementSources "MediaObject" playerClass [playerClass, elementClass] :=
  .step rfl hasClass_element (by decide) (.root rfl)

theorem player_has_methods_of_element :
    ∃ (run : Run .default elementSources) (met : List Go.Interface),
      Go.expand run.decls 2 "IPlayer" = some met ∧
      met.map Go.Interface.name = ["IPlayer", "IElement"] ∧
      List.Forall₂ (HasSignature run.registry .default)
        (playerClass.methods ++ elementClass.methods) (met.flatMap Go.Interface.methods) := by
  obtain ⟨files, h⟩ : ∃ files, (compileSources .default elementSources).result = .ok files :=
    Outcome.exists_eq_ok_of_isOk (by decide +kernel)
  obtain ⟨run, -, -, hclasses⟩ := capability_has_methods_of_lineage h
  obtain ⟨-, hlineage⟩ := hclasses playerClass hasClass_player (by decide)
  obtain ⟨met, hexpand, hnames, -, hmethods⟩ := hlineage _ lineage_player
  exact ⟨run, met, hexpand 2 (by decide), hnames, hmethods⟩

end Compilation

end GoBindings
