import GoBindings.Proofs.Capabilities

set_option autoImplicit false

/-! # Which inherited methods are in reach

A struct has the methods of its base by embedding it, unless the class has something else under the
same name. Names are compared within a class only, so a class may well have a property that is
called like a method further up, and this method is then out of reach for it and for the classes
below. `provides_iff_not_hidden` says of each method of a lineage whether its lower end has it; what
this means for whole interfaces follows. -/

namespace GoBindings

open Binding

/-! ## Hiding -/

/-- Under the name of a method, a class has its base, a property, or a method with other types. -/
def Hides (r : Registry) (code : CodeSettings) (c : Schema.RemoteClass) (sig : Go.Signature) :
    Prop :=
  (c.base = some sig.name ∨ ∃ p ∈ c.properties, Identifier.exported p.name = sig.name) ∨
    ∃ m ∈ c.methods, ∃ other, HasSignature r code m other ∧ other.name = sig.name ∧
      ¬ other.SameTypes sig

/-- Of some classes, the first that has anything under the name of a method hides it. -/
inductive Hidden (r : Registry) (code : CodeSettings) (sig : Go.Signature) :
    List Schema.RemoteClass → Prop
  | here {c : Schema.RemoteClass} {cs : List Schema.RemoteClass} (h : Hides r code c sig) :
      Hidden r code sig (c :: cs)
  | later {c : Schema.RemoteClass} {cs : List Schema.RemoteClass} (h : sig.name ∉ c.memberNames)
      (rest : Hidden r code sig cs) : Hidden r code sig (c :: cs)

/-- No method of a class is hidden by the classes below it. -/
def Reaches (r : Registry) (code : CodeSettings) (below : List Schema.RemoteClass)
    (a : Schema.RemoteClass) : Prop :=
  ∀ m ∈ a.methods, ∀ sig, HasSignature r code m sig → ¬ Hidden r code sig below

section

variable {r : Registry} {code : CodeSettings} {sig : Go.Signature}

theorem mem_memberNames_iff {c : Schema.RemoteClass} {name : String} :
    name ∈ c.memberNames ↔
      (c.base = some name ∨ ∃ p ∈ c.properties, Identifier.exported p.name = name) ∨
        ∃ m ∈ c.methods, Identifier.exported m.name = name := by
  simp [Schema.RemoteClass.memberNames, Option.mem_toList, or_assoc]

theorem Hides.mem_memberNames {c : Schema.RemoteClass} (h : Hides r code c sig) :
    sig.name ∈ c.memberNames := by
  rw [mem_memberNames_iff]
  refine h.imp_right ?_
  rintro ⟨m, hm, other, hother, hname, -⟩
  exact ⟨m, hm, hother.name.symm.trans hname⟩

theorem not_hidden_nil : ¬ Hidden r code sig [] := by
  intro h
  cases h

theorem hidden_cons_iff_of_mem {c : Schema.RemoteClass} {cs : List Schema.RemoteClass}
    (hmem : sig.name ∈ c.memberNames) : Hidden r code sig (c :: cs) ↔ Hides r code c sig := by
  constructor
  · intro h
    cases h with
    | here h => exact h
    | later hnone _ => exact absurd hmem hnone
  · exact .here

theorem hidden_cons_iff_of_not_mem {c : Schema.RemoteClass} {cs : List Schema.RemoteClass}
    (hnone : sig.name ∉ c.memberNames) :
    Hidden r code sig (c :: cs) ↔ Hidden r code sig cs := by
  constructor
  · intro h
    cases h with
    | here h => exact absurd h.mem_memberNames hnone
    | later _ rest => exact rest
  · exact .later hnone

/-- Classes that do not have the name at all hide nothing. -/
theorem not_hidden_of_not_mem {cs : List Schema.RemoteClass}
    (h : ∀ c ∈ cs, sig.name ∉ c.memberNames) : ¬ Hidden r code sig cs := by
  induction cs with
  | nil => exact not_hidden_nil
  | cons c cs ih =>
    rw [List.forall_mem_cons] at h
    rw [hidden_cons_iff_of_not_mem h.1]
    exact ih h.2

end

/-! ## Parts of a lineage -/

namespace Lineage

variable {sources : List Source} {root : String} {c a : Schema.RemoteClass}
  {below above : List Schema.RemoteClass}

theorem eq_of_cons (h : Lineage sources root c (a :: above)) : c = a := by
  cases h with
  | top _ => rfl
  | root _ => rfl
  | step _ _ _ _ => rfl

/-- A lineage that goes on goes on with the base. -/
theorem exists_base_of_append {b : Schema.RemoteClass}
    (h : Lineage sources root c (b :: below ++ a :: above)) :
    ∃ d, c.base = some d.name ∧ Source.HasClass sources d ∧ d.name ≠ root ∧
      Lineage sources root d (below ++ a :: above) := by
  rw [List.cons_append] at h
  generalize hrest : below ++ a :: above = rest at h
  cases h with
  | top _ => exact absurd hrest (by simp)
  | root _ => exact absurd hrest (by simp)
  | @step _ d _ hbase hd hroot h => exact ⟨d, hbase, hd, hroot, h⟩

/-- A lineage from somewhere within it on. -/
theorem drop (h : Lineage sources root c (below ++ a :: above)) (hc : Source.HasClass sources c)
    (hroot : c.name ≠ root) :
    Lineage sources root a (a :: above) ∧ Source.HasClass sources a ∧ a.name ≠ root := by
  induction below generalizing c with
  | nil =>
    obtain rfl := h.eq_of_cons
    exact ⟨h, hc, hroot⟩
  | cons b below ih =>
    obtain ⟨d, -, hd, hdroot, hrest⟩ := h.exists_base_of_append
    exact ih hrest hd hdroot

end Lineage

/-! ## What a class provides -/

namespace Compilation

variable {s : Settings} {sources : List Source} {run : Run s sources}

theorem ClassCode.provides_iff_of_mem {c : Schema.RemoteClass} (k : ClassCode run c)
    {sig : Go.Signature} (hupper : Identifier.StartsUpper sig.name)
    (hmem : sig.name ∈ c.memberNames) :
    Go.Provides run.decls c.name sig ↔ ¬ Hides run.registry s.code c sig := by
  rcases mem_memberNames_iff.1 hmem with hfield | ⟨m, hm, hname⟩
  · obtain ⟨f, hf⟩ := k.exists_field hupper hfield
    have hhides : Hides run.registry s.code c sig := Or.inl hfield
    simp [Go.not_provides_of_field hf, hhides]
  · obtain ⟨n, hn, hsig, hown⟩ := k.exists_method hm
    rw [hname] at hown
    rw [Go.provides_iff_of_own hown]
    constructor
    · rintro htypes (hfield | ⟨m', hm', other, hother, hname', hdiffer⟩)
      · obtain ⟨f, hf⟩ := k.exists_field hupper hfield
        exact absurd (hown.symm.trans hf) (by simp)
      · -- the two methods have one name, so they are one stub
        obtain ⟨n', hn', hsig', hown'⟩ := k.exists_method hm'
        rw [← hother.name, hname', hown] at hown'
        obtain rfl := hother.unique hsig'
        have hstub : n.stub s.code c.name = n'.stub s.code c.name := by
          simpa using hown'
        rw [hstub] at htypes
        exact hdiffer htypes
    · intro hhides
      by_contra hdiffer
      exact hhides (Or.inr ⟨m, hm, n.signature s.code, hsig, hsig.name.trans hname, hdiffer⟩)

/-- **What of a class is in reach from below.** The induction goes up from the class at the lower
    end: as long as nothing has the name, the struct provides what its base provides. -/
theorem provides_iff_not_hidden {root : String} {c a : Schema.RemoteClass}
    {below above : List Schema.RemoteClass} (hc : Source.HasClass sources c)
    (h : Lineage sources root c (below ++ a :: above)) {m : Schema.Method} (hm : m ∈ a.methods)
    {sig : Go.Signature} (hsig : HasSignature run.registry s.code m sig) :
    Go.Provides run.decls c.name sig ↔ ¬ Hidden run.registry s.code sig below := by
  have hupper : Identifier.StartsUpper sig.name :=
    hsig.name ▸ Identifier.startsUpper_exported m.name
  obtain ⟨k⟩ := run.nonempty_classCode hc
  induction below generalizing c with
  | nil =>
    obtain rfl := h.eq_of_cons
    obtain ⟨n, -, hn, hown⟩ := k.exists_method hm
    obtain rfl := hsig.unique hn
    rw [← hsig.name] at hown
    refine iff_of_true ?_ not_hidden_nil
    exact (Go.provides_iff_of_own hown).2 ⟨rfl, rfl⟩
  | cons b below ih =>
    obtain rfl := h.eq_of_cons
    by_cases hmem : sig.name ∈ c.memberNames
    · rw [hidden_cons_iff_of_mem hmem]
      exact k.provides_iff_of_mem hupper hmem
    · obtain ⟨d, hbase, hd, -, hrest⟩ := h.exists_base_of_append
      have hembedded : Go.embeddedIn run.decls c.name = [d.name] := by
        rw [k.embeddedIn_eq, hbase]
        rfl
      obtain ⟨kd⟩ := run.nonempty_classCode hd
      rw [hidden_cons_iff_of_not_mem hmem,
        Go.provides_iff_of_embedded (k.membersAt_eq_nil hupper hmem) hembedded]
      exact ih hd hrest kd

/-- All methods of a class are in reach exactly if none is hidden. -/
theorem forall_provides_iff_reaches {root : String} {c a : Schema.RemoteClass}
    {below above : List Schema.RemoteClass} (hc : Source.HasClass sources c)
    (h : Lineage sources root c (below ++ a :: above)) :
    (∀ m ∈ a.methods, ∀ sig, HasSignature run.registry s.code m sig →
      Go.Provides run.decls c.name sig) ↔ Reaches run.registry s.code below a := by
  unfold Reaches
  constructor
  · intro hprovides m hm sig hsig
    exact (provides_iff_not_hidden hc h hm hsig).1 (hprovides m hm sig hsig)
  · intro hreaches m hm sig hsig
    exact (provides_iff_not_hidden hc h hm hsig).2 (hreaches m hm sig hsig)

/-- Signatures that go with methods one for one are the signatures of these methods. -/
theorem forall_mem_signatures_iff {r : Registry} {code : CodeSettings} {ms : List Schema.Method}
    {sigs : List Go.Signature} (h : List.Forall₂ (HasSignature r code) ms sigs)
    {P : Go.Signature → Prop} :
    (∀ sig ∈ sigs, P sig) ↔ ∀ m ∈ ms, ∀ sig, HasSignature r code m sig → P sig := by
  constructor
  · intro hall m hm sig hsig
    obtain ⟨sig', hmem, hsig'⟩ := Outcome.exists_of_mem_left h hm
    rw [hsig.unique hsig']
    exact hall sig' hmem
  · intro hall sig hmem
    obtain ⟨m, hm, hsig⟩ := Outcome.exists_of_mem_right h hmem
    exact hall m hm sig hsig

theorem implements_iff_of_run (run : Run s sources) {c a : Schema.RemoteClass}
    {below above : List Schema.RemoteClass} (hc : Source.HasClass sources c)
    (hroot : c.name ≠ s.code.rootClass)
    (h : Lineage sources s.code.rootClass c (below ++ a :: above)) :
    Go.Implements run.decls c.name (capabilityName a.name) ↔
      Reaches run.registry s.code below a := by
  obtain ⟨-, ha, haroot⟩ := h.drop hc hroot
  obtain ⟨k⟩ := run.nonempty_classCode ha
  rw [← forall_provides_iff_reaches hc h, ← forall_mem_signatures_iff k.signatures]
  unfold Go.Implements
  rw [k.interfacesNamed_eq haroot]
  simp [ClassCode.capability]

/-- The whole of a capability is in reach if the methods of every class further up are. -/
theorem satisfies_iff_of_run (run : Run s sources) {c a : Schema.RemoteClass}
    {below above : List Schema.RemoteClass} (hc : Source.HasClass sources c)
    (hroot : c.name ≠ s.code.rootClass)
    (h : Lineage sources s.code.rootClass c (below ++ a :: above)) :
    Go.Satisfies run.decls c.name (capabilityName a.name) ↔
      ∀ mid a' top, a :: above = mid ++ a' :: top →
        Reaches run.registry s.code (below ++ mid) a' := by
  obtain ⟨hup, ha, haroot⟩ := h.drop hc hroot
  obtain ⟨met, hmet, hexpand⟩ := exists_expansion run hup ha haroot
  have hlineage : ∀ mid a' top, a :: above = mid ++ a' :: top →
      Lineage sources s.code.rootClass c ((below ++ mid) ++ a' :: top) := by
    intro mid a' top hsplit
    rw [List.append_assoc, ← hsplit]
    exact h
  rw [Go.satisfies_iff (hexpand _ (Nat.le_refl _)), forall_mem_signatures_iff hmet.methods]
  constructor
  · intro hall mid a' top hsplit
    refine (forall_provides_iff_reaches hc (hlineage mid a' top hsplit)).1 fun m hm => hall m ?_
    rw [hsplit]
    exact List.mem_flatMap.2 ⟨a', by simp, hm⟩
  · intro hall m hm sig hsig
    obtain ⟨a', ha', hm⟩ := List.mem_flatMap.1 hm
    obtain ⟨mid, top, hsplit⟩ := List.append_of_mem ha'
    have hreaches := hall mid a' top hsplit
    exact (forall_provides_iff_reaches hc (hlineage mid a' top hsplit)).2 hreaches m hm sig hsig

/-- **When a class implements what its lineage can do.** Take a class of a successful run and a
    class of its lineage, and look at the classes from the first up to, but without, the second. The
    first has every method of the second's interface, with the same types, exactly if none of these
    methods is hidden by the classes between: where one of them has something under this name, the
    lowest has a method with these types. The interface as a whole, with all that it embeds, is
    satisfied exactly if this holds also of all classes further up. -/
theorem implements_capability_iff_not_hidden {s : Settings} {sources : List Source}
    {files : List OutputFile} (h : (compileSources s sources).result = .ok files) :
    ∃ run : Run s sources, run.files = files ∧
      files.map OutputFile.contents = run.goFiles.map Go.File.print ∧
      ∀ c, Source.HasClass sources c → c.name ≠ s.code.rootClass →
        ∀ below a above, Lineage sources s.code.rootClass c (below ++ a :: above) →
          (Go.Implements run.decls c.name (capabilityName a.name) ↔
            Reaches run.registry s.code below a) ∧
          (Go.Satisfies run.decls c.name (capabilityName a.name) ↔
            ∀ mid a' top, a :: above = mid ++ a' :: top →
              Reaches run.registry s.code (below ++ mid) a') := by
  obtain ⟨run, rfl⟩ := result_compileSources_eq_ok_iff.1 h
  refine ⟨run, rfl, run.contents_files, fun c hc hroot below a above hchain => ⟨?_, ?_⟩⟩
  · exact implements_iff_of_run run hc hroot hchain
  · exact satisfies_iff_of_run run hc hroot hchain

/-- Nothing in `Player` is called like a method of `Element`. -/
theorem reaches_player {r : Registry} : Reaches r .default [playerClass] elementClass := by
  intro m hm sig hsig
  have hname : sig.name = "Connect" := by
    rw [hsig.name, List.mem_singleton.1 hm]
    decide
  refine not_hidden_of_not_mem fun c hc => ?_
  rw [List.mem_singleton.1 hc, hname]
  decide

theorem player_implements_element :
    ∃ run : Run .default elementSources, Go.Implements run.decls "Player" "IElement" ∧
      Go.Satisfies run.decls "Player" "IPlayer" := by
  obtain ⟨files, h⟩ : ∃ files, (compileSources .default elementSources).result = .ok files :=
    Outcome.exists_eq_ok_of_isOk (by decide +kernel)
  obtain ⟨run, -, -, hclasses⟩ := implements_capability_iff_not_hidden h
  have hplayer := hclasses playerClass hasClass_player (by decide)
  refine ⟨run, ?_, ?_⟩
  · exact (hplayer [playerClass] elementClass [] lineage_player).1.2 reaches_player
  · refine (hplayer [] playerClass [elementClass] lineage_player).2.2 ?_
    intro mid a top hsplit
    match mid with
    | [] => exact fun _ _ _ _ => not_hidden_nil
    | [c] =>
      obtain ⟨rfl, rfl, -⟩ : playerClass = c ∧ elementClass = a ∧ [] = top := by simpa using hsplit
      exact reaches_player
    | c :: d :: mid => exact absurd hsplit (by simp)

/-! ## A method that is hidden -/

/-- A class with a property that is called like a method of its base. -/
def switchClass : Schema.RemoteClass where
  name := "Switch"
  doc := ""
  baseText := some "Element"
  properties := [⟨"connect", "boolean", "", false, none⟩]
  methods := []
  events := []
  constructor := none

def switchSources : List Source := [
  { path := ⟨"switch.kmd.json"⟩
    document := {
      remoteClasses := [mediaObjectClass, elementClass, switchClass], complexTypes := [] } }]

/-- **A run may succeed on a class that does not implement the capability of its base.** `Connect`
    of a `Switch` is a field. -/
theorem switch_does_not_implement_element :
    ∃ run : Run .default switchSources,
      (compileSources .default switchSources).result = .ok run.files ∧
      Lineage switchSources "MediaObject" switchClass [switchClass, elementClass] ∧
      ¬ Go.Implements run.decls "Switch" "IElement" := by
  obtain ⟨files, h⟩ : ∃ files, (compileSources .default switchSources).result = .ok files :=
    Outcome.exists_eq_ok_of_isOk (by decide +kernel)
  obtain ⟨run, rfl⟩ := result_compileSources_eq_ok_iff.1 h
  have hswitch : Source.HasClass switchSources switchClass :=
    ⟨_, List.mem_cons_self, by simp⟩
  have helement : Source.HasClass switchSources elementClass :=
    ⟨_, List.mem_cons_self, by simp⟩
  have hlineage : Lineage switchSources "MediaObject" switchClass
      ([switchClass] ++ elementClass :: []) := .step rfl helement (by decide) (.root rfl)
  refine ⟨run, h, hlineage, fun himplements => ?_⟩
  have hreaches := (implements_iff_of_run run hswitch (by decide) hlineage).1 himplements
  obtain ⟨k⟩ := run.nonempty_classCode helement
  have hconnect : connectMethod ∈ elementClass.methods := List.mem_cons_self
  obtain ⟨n, -, hsig, -⟩ := k.exists_method hconnect
  have hhides : Hides run.registry .default switchClass (n.signature .default) :=
    Or.inl (Or.inr ⟨_, List.mem_cons_self, hsig.name.symm⟩)
  exact hreaches connectMethod hconnect _ hsig (.here hhides)

end Compilation

end GoBindings
