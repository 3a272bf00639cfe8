import GoBindings.Proofs.StructFields

set_option autoImplicit false

/-! # Structs that hold structs

A struct that has another as a part of itself has room for all of it, so Go refuses a struct that
would come to be a part of itself. Bases never lead there, since every chain of bases ends.
Properties may: nothing looks at what the types of properties amount to. `Source.Holds` says from
the descriptions which struct holds which, and the structs of the code have a cycle exactly if the
descriptions have one. -/

namespace GoBindings

open Binding
open Registry (Winning)
open Relation (TransGen)

/-! ## Structs of code -/

namespace Go

def HasStruct (decls : List Decl) (name : String) (fields : List Field) : Prop :=
  ∃ doc, Decl.type ⟨doc, name, .struct fields⟩ ∈ decls

/-- A struct embeds another or has a field of its type, and not of a pointer, a slice or a map. -/
def Holds (decls : List Decl) (outer inner : String) : Prop :=
  (∃ fields, HasStruct decls outer fields ∧ ∃ f ∈ fields, f.type = .named inner) ∧
    ∃ fields, HasStruct decls inner fields

theorem exists_of_mem_embeddedIn {decls : List Decl} {outer inner : String}
    (h : inner ∈ embeddedIn decls outer) :
    ∃ fields, HasStruct decls outer fields ∧ ∃ f ∈ fields, f.embeds? = some inner := by
  obtain ⟨f, hf, hembeds⟩ := List.mem_filterMap.1 h
  obtain ⟨d, hd, hf⟩ := List.mem_flatMap.1 hf
  unfold Decl.fieldsOf at hf
  split at hf
  · next doc name fields =>
    split at hf
    · next hname =>
      subst hname
      exact ⟨fields, ⟨doc, hd⟩, f, ‹f ∈ fields›, hembeds⟩
    · exact absurd hf List.not_mem_nil
  · exact absurd hf List.not_mem_nil

end Go

theorem Registry.kind_typeEntry_ne_remote {path : Path} {i : Nat} {t : Schema.ComplexType} :
    (typeEntry path i t).kind ≠ .remote := by
  unfold typeEntry
  split <;> exact Kind.noConfusion

/-! ## Types that are held -/

namespace Binding

variable {stands : String → Entry → Prop} {style : OptionalStyle}

/-- The type, optional or not, is a class. -/
def IsRemote (stands : String → Entry → Prop) (e : TypeExpr) : Prop :=
  ∃ name entry, e.required = .named name ∧ stands name entry ∧ entry.kind = .remote

/-- What has the type holds a value of the Go type that is called `name`. Primitive types and the
    interfaces of classes count, as a description may declare a struct that takes their name. -/
inductive HeldAs (stands : String → Entry → Prop) (style : OptionalStyle) :
    TypeExpr → String → Prop
  | primitive (p : Primitive) : HeldAs stands style (.primitive p) (primitiveName p)
  | data {name : String} {entry : Entry} (h : stands name entry) (hkind : entry.kind ≠ .remote) :
      HeldAs stands style (.named name) name
  | remote {name : String} {entry : Entry} (h : stands name entry) (hkind : entry.kind = .remote) :
      HeldAs stands style (.named name) (capabilityName name)
  | optional {inner : TypeExpr} {name : String} (h : HeldAs stands style inner name)
      (hstyle : style = .bare ∨ IsRemote stands inner) : HeldAs stands style (.optional inner) name

theorem HeldAs.required_ne_collection {e : TypeExpr} {name : String}
    (h : HeldAs stands style e name) (item : TypeExpr) : e.required ≠ .collection item := by
  induction h with
  | optional _ _ ih => exact ih
  | _ => exact TypeExpr.noConfusion

theorem Denotes.isNillable_iff {r : Registry} {e : TypeExpr} {t : Resolved} (h : Denotes r e t) :
    t.isNillable = true ↔ IsRemote r.Has e ∨ ∃ item, e.required = .collection item := by
  induction h with
  | primitive p => simp [Resolved.isNillable, Resolved.required, IsRemote, TypeExpr.required]
  | @named name entry hname =>
    have hentry : ∀ found, r.Has name found ↔ found = entry := fun found =>
      ⟨fun hfound => Option.some.inj (hfound.symm.trans hname), fun heq => heq ▸ hname⟩
    cases hkind : entry.kind <;>
      simp [Resolved.isNillable, Resolved.ofEntry, Resolved.required, IsRemote, TypeExpr.required,
        hentry, hkind]
  | collection _ _ => simp [Resolved.isNillable, Resolved.required, TypeExpr.required]
  | optional _ ih => exact ih

theorem isPointerOptional_iff {t : Resolved} :
    (Resolved.optional t).isPointerOptional style = false ↔
      style = .bare ∨ t.isNillable = true := by
  cases style <;> simp [Resolved.isPointerOptional]

theorem goType_optional_eq_named_iff {t : Resolved} {name : String} :
    (Resolved.optional t).goType style = .named name ↔
      t.goType style = .named name ∧ (style = .bare ∨ t.isNillable = true) := by
  rw [← isPointerOptional_iff, Resolved.goType]
  cases hpointer : (Resolved.optional t).isPointerOptional style with
  | false => simp
  | true =>
    cases htype : t.goType style <;> simp [Go.Ty.isPointer]

theorem goType_ofEntry_eq_named_iff {n name : String} {entry : Entry} :
    (Resolved.ofEntry n entry).goType style = .named name ↔
      (entry.kind = .remote ∧ capabilityName n = name) ∨ (entry.kind ≠ .remote ∧ n = name) := by
  cases hkind : entry.kind <;> simp [Resolved.ofEntry, hkind, Resolved.goType]

/-- Whether the Go type of a type expression is just a name. -/
theorem Denotes.goType_eq_named_iff {r : Registry} {e : TypeExpr} {t : Resolved}
    (h : Denotes r e t) {name : String} :
    t.goType style = .named name ↔ HeldAs r.Has style e name := by
  induction h with
  | primitive p =>
    constructor
    · intro heq
      cases heq
      exact .primitive p
    · intro hheld
      cases hheld
      rfl
  | @named n entry hn =>
    rw [goType_ofEntry_eq_named_iff]
    constructor
    · rintro (⟨hkind, rfl⟩ | ⟨hkind, rfl⟩)
      · exact .remote hn hkind
      · exact .data hn hkind
    · intro hheld
      cases hheld with
      | data hfound hkind =>
        cases hfound.symm.trans hn
        exact Or.inr ⟨hkind, rfl⟩
      | remote hfound hkind =>
        cases hfound.symm.trans hn
        exact Or.inl ⟨hkind, rfl⟩
  | collection _ _ =>
    constructor
    · exact fun heq => absurd heq Go.Ty.noConfusion
    · intro hheld
      cases hheld
  | optional hinner ih =>
    rw [goType_optional_eq_named_iff, ih, hinner.isNillable_iff]
    constructor
    · rintro ⟨hheld, hstyle⟩
      refine .optional hheld (hstyle.imp_right fun hnil => hnil.resolve_right ?_)
      rintro ⟨item, hitem⟩
      exact hheld.required_ne_collection item hitem
    · intro hheld
      cases hheld with
      | optional hheld hstyle => exact ⟨hheld, hstyle.imp_right Or.inl⟩

theorem HasField.type_eq_named_iff {r : Registry} {p : Schema.Property} {g : Go.Field}
    (h : HasField r style p g) {name : String} :
    g.type = .named name ↔ ∃ e, Interface.Denoted p e ∧ HeldAs r.Has style e name := by
  obtain ⟨-, e, t, hdenoted, ht, htype⟩ := h
  rw [htype, ht.goType_eq_named_iff]
  refine ⟨fun hheld => ⟨e, hdenoted, hheld⟩, ?_⟩
  rintro ⟨e', hdenoted', hheld⟩
  obtain ⟨_, hparse, rfl⟩ := hdenoted
  obtain ⟨_, hparse', rfl⟩ := hdenoted'
  rw [Except.ok.inj (hparse.symm.trans hparse')]
  exact hheld

theorem type_of_mem_head {base : Option String} {head : List Go.Field}
    (h : head = base.toList.map embedded ∨ head = [classHead base]) {name : String} :
    (∃ f ∈ head, f.type = .named name) ↔ base = some name := by
  rcases h with rfl | rfl <;> cases base <;> simp [embedded, classHead]

/-- What a struct holds: its base, and what the types of its properties are held as. -/
theorem HasFields.exists_named_iff {r : Registry} {base : Option String}
    {properties : List Schema.Property} {fields : List Go.Field}
    (h : HasFields r style base properties fields) {name : String} :
    (∃ f ∈ fields, f.type = .named name) ↔
      base = some name ∨
        ∃ p ∈ properties, ∃ e, Interface.Denoted p e ∧ HeldAs r.Has style e name := by
  obtain ⟨head, own, rfl, hown, hhead⟩ := h
  simp only [List.mem_append, or_and_right, exists_or]
  refine or_congr (type_of_mem_head hhead) ⟨?_, ?_⟩
  · rintro ⟨g, hg, htype⟩
    obtain ⟨p, hp, hfield⟩ := Outcome.exists_of_mem_right hown hg
    exact ⟨p, hp, hfield.type_eq_named_iff.1 htype⟩
  · rintro ⟨p, hp, hheld⟩
    obtain ⟨g, hg, hfield⟩ := Outcome.exists_of_mem_left hown hp
    exact ⟨g, hg, hfield.type_eq_named_iff.2 hheld⟩

/-- Only a base is embedded. -/
theorem HasFields.base_of_embeds {r : Registry} {base : Option String}
    {properties : List Schema.Property} {fields : List Go.Field}
    (h : HasFields r style base properties fields) {f : Go.Field} (hf : f ∈ fields)
    {name : String} (hname : f.embeds? = some name) : base = some name := by
  obtain ⟨head, own, rfl, hown, hhead⟩ := h
  rcases List.mem_append.1 hf with hf | hf
  · rcases hhead with rfl | rfl <;> cases base <;>
      simp_all [embedded, classHead, Go.Field.embeds?, Go.Ty.declared?]
  · obtain ⟨p, -, hp, -⟩ := Outcome.exists_of_mem_right hown hf
    simp [Go.Field.embeds?, hp] at hname

end Binding

/-! ## Structs of descriptions -/

/-- By their descriptions, the struct of `outer` holds that of `inner`: as its base, or in a
    property. -/
def Source.Holds (style : OptionalStyle) (sources : List Source) (outer inner : String) : Prop :=
  (∃ base properties, HasStruct sources outer base properties ∧
    (base = some inner ∨ ∃ p ∈ properties, ∃ e, Interface.Denoted p e ∧
      HeldAs (Winning sources) style e inner)) ∧
  ∃ base properties, HasStruct sources inner base properties

namespace Compilation

namespace Run

variable {s : Settings} {sources : List Source}

theorem exists_struct_iff (run : Run s sources) {name : String} :
    (∃ fields, Go.HasStruct run.decls name fields) ↔
      ∃ base properties, Source.HasStruct sources name base properties := by
  constructor
  · rintro ⟨fields, doc, hmem⟩
    obtain ⟨base, properties, hstruct, -⟩ := run.hasFields_of_mem hmem
    exact ⟨base, properties, hstruct⟩
  · rintro ⟨base, properties, hstruct⟩
    obtain ⟨doc, fields, hmem, -⟩ := run.exists_struct_of_hasStruct hstruct
    exact ⟨fields, doc, hmem⟩

/-- The structs of the code hold each other as those of the descriptions do. -/
theorem holds_iff (run : Run s sources) {outer inner : String} :
    Go.Holds run.decls outer inner ↔ Source.Holds s.code.optionalStyle sources outer inner := by
  refine and_congr ⟨?_, ?_⟩ run.exists_struct_iff
  · rintro ⟨fields, ⟨doc, hmem⟩, hnamed⟩
    obtain ⟨base, properties, hstruct, hfields⟩ := run.hasFields_of_mem hmem
    have hheld := hfields.exists_named_iff.1 hnamed
    rw [Registry.has_of_build run.built] at hheld
    exact ⟨base, properties, hstruct, hheld⟩
  · rintro ⟨base, properties, hstruct, hheld⟩
    obtain ⟨doc, fields, hmem, hfields⟩ := run.exists_struct_of_hasStruct hstruct
    rw [← Registry.has_of_build run.built] at hheld
    exact ⟨fields, ⟨doc, hmem⟩, hfields.exists_named_iff.2 hheld⟩

/-- What is embedded is a base, and chains of bases end. -/
theorem embedding_acyclic (run : Run s sources) (name : String) :
    ¬ TransGen (fun outer inner => inner ∈ Go.embeddedIn run.decls outer) name name := by
  have hextends : ∀ outer inner, inner ∈ Go.embeddedIn run.decls outer →
      Registry.Extends (Winning sources) outer inner := by
    intro outer inner hmem
    obtain ⟨fields, ⟨doc, hstruct⟩, f, hf, hembeds⟩ := Go.exists_of_mem_embeddedIn hmem
    obtain ⟨base, properties, hstruct, hfields⟩ := run.hasFields_of_mem hstruct
    obtain ⟨entry, hwin, -, hbase⟩ := hstruct.exists_winning
    exact ⟨entry, hwin, hbase.trans (hfields.base_of_embeds hf hembeds)⟩
  intro hcycle
  exact (Registry.acceptable_of_build run.built).no_cycle name (TransGen.mono hextends _ _ hcycle)

end Run

/-- **When structs have a finite size.** In the code of a successful run no struct comes to be a
    part of itself exactly if none does by the descriptions. Embedding alone never leads there, so
    every cycle has a property in it. -/
theorem no_struct_holds_itself_iff {s : Settings} {sources : List Source}
    {files : List OutputFile} (h : (compileSources s sources).result = .ok files) :
    ∃ run : Run s sources, run.files = files ∧
      files.map OutputFile.contents = run.goFiles.map Go.File.print ∧
      (∀ name, ¬ TransGen (fun outer inner => inner ∈ Go.embeddedIn run.decls outer) name name) ∧
      ((∀ name, ¬ TransGen (Go.Holds run.decls) name name) ↔
        ∀ name, ¬ TransGen (Source.Holds s.code.optionalStyle sources) name name) := by
  obtain ⟨run, rfl⟩ := result_compileSources_eq_ok_iff.1 h
  have hholds : Go.Holds run.decls = Source.Holds s.code.optionalStyle sources := by
    funext outer inner
    exact propext run.holds_iff
  exact ⟨run, rfl, run.contents_files, run.embedding_acyclic, by rw [hholds]⟩

/-- Absent values are told by pointers. -/
def pointing : Settings :=
  { Settings.default with code := { CodeSettings.default with optionalStyle := .pointer } }

/-- A node leads to others, but through a pointer and a slice. -/
def treeNode : Schema.ComplexType where
  format := none
  name := "Node"
  doc := ""
  values := []
  properties := [⟨"next", "Node", "", true, none⟩, ⟨"children", "Node[]", "", false, none⟩,
    ⟨"at", "Position", "", false, none⟩]
  baseText := none

def treePosition : Schema.ComplexType where
  format := none
  name := "Position"
  doc := ""
  values := []
  properties := [⟨"ms", "int64", "", false, none⟩]
  baseText := none

def treeSources : List Source := [
  { path := ⟨"tree.kmd.json"⟩
    document := { remoteClasses := [], complexTypes := [treeNode, treePosition] } }]

theorem kind_ne_remote_of_tree {name : String} {entry : Entry}
    (h : Winning treeSources name entry) : entry.kind ≠ .remote := by
  cases h with
  | type _ _ _ _ => exact Registry.kind_typeEntry_ne_remote
  | remote hs hc =>
    cases List.mem_singleton.1 (List.mem_of_getElem? hs)
    exact absurd hc (by simp)

theorem exists_of_struct_tree {name : String} {base : Option String}
    {properties : List Schema.Property} (h : Source.HasStruct treeSources name base properties) :
    ∃ t, (t = treeNode ∨ t = treePosition) ∧
      name = t.name ∧ base = t.base ∧ properties = t.properties := by
  cases h with
  | @record t ht _ =>
    have ht : t ∈ [treeNode, treePosition] := ht
    exact ⟨t, by simpa using ht, rfl, rfl, rfl⟩
  | remote hc =>
    obtain ⟨source, hsource, hc⟩ := hc
    cases List.mem_singleton.1 hsource
    exact absurd hc List.not_mem_nil

theorem eq_of_heldAs_tree {name inner : String}
    (h : HeldAs (Winning treeSources) .pointer (.named name) inner) : inner = name := by
  cases h with
  | data _ _ => rfl
  | remote hwin hkind => exact absurd hkind (kind_ne_remote_of_tree hwin)

/-- The only struct that another holds is the position of a node. -/
theorem holds_tree {outer inner : String} (h : Source.Holds .pointer treeSources outer inner) :
    outer = "Node" ∧ inner = "Position" := by
  obtain ⟨⟨base, properties, hstruct, hparts⟩, base', properties', hstruct'⟩ := h
  have hnode : TypeExpr.parse "Node" = .ok (.named "Node") := by decide +kernel
  have hchildren : TypeExpr.parse "Node[]" = .ok (.collection (.named "Node")) := by decide +kernel
  have hat : TypeExpr.parse "Position" = .ok (.named "Position") := by decide +kernel
  have hms : TypeExpr.parse "int64" = .ok (.primitive .int64) := by decide +kernel
  obtain ⟨t, rfl | rfl, rfl, rfl, rfl⟩ := exists_of_struct_tree hstruct
  · obtain ⟨p, hp, _, ⟨e, hparse, rfl⟩, hheld⟩ := hparts.resolve_left nofun
    simp only [treeNode, List.mem_cons, List.not_mem_nil, or_false] at hp
    rcases hp with rfl | rfl | rfl
    · cases hnode.symm.trans hparse
      cases hheld with
      | optional _ hstyle =>
        obtain ⟨name, entry, -, hwin, hkind⟩ := hstyle.resolve_left OptionalStyle.noConfusion
        exact absurd hkind (kind_ne_remote_of_tree hwin)
    · cases hchildren.symm.trans hparse
      cases hheld
    · cases hat.symm.trans hparse
      exact ⟨rfl, eq_of_heldAs_tree hheld⟩
  · obtain ⟨p, hp, _, ⟨e, hparse, rfl⟩, hheld⟩ := hparts.resolve_left nofun
    obtain rfl := List.mem_singleton.1 hp
    cases hms.symm.trans hparse
    cases hheld
    -- there is no struct that is called like the primitive type
    obtain ⟨t, rfl | rfl, hname, -⟩ := exists_of_struct_tree hstruct'
    · exact absurd hname (by decide)
    · exact absurd hname (by decide)

theorem tree_no_struct_holds_itself :
    ∃ run : Run pointing treeSources, ∀ name, ¬ TransGen (Go.Holds run.decls) name name := by
  obtain ⟨files, h⟩ : ∃ files, (compileSources pointing treeSources).result = .ok files :=
    Outcome.exists_eq_ok_of_isOk (by decide +kernel)
  obtain ⟨run, -, -, -, hiff⟩ := no_struct_holds_itself_iff h
  refine ⟨run, hiff.2 fun name hcycle => ?_⟩
  obtain ⟨_, hfirst, -⟩ := TransGen.head'_iff.1 hcycle
  obtain ⟨_, -, hlast⟩ := TransGen.tail'_iff.1 hcycle
  have hnode : name = "Node" := (holds_tree hfirst).1
  have hposition : name = "Position" := (holds_tree hlast).2
  exact absurd (hnode.symm.trans hposition) (by decide)

/-! ## A struct of no finite size -/

/-- A node has the next node in it. -/
def nodeType : Schema.ComplexType where
  format := none
  name := "Node"
  doc := ""
  values := []
  properties := [⟨"next", "Node", "", false, none⟩]
  baseText := none

def nodeSources : List Source := [
  { path := ⟨"node.kmd.json"⟩
    document := { remoteClasses := [], complexTypes := [nodeType] } }]

/-- **A run may succeed and declare a struct that is a part of itself.** -/
theorem node_struct_holds_itself :
    ∃ run : Run .default nodeSources,
      (compileSources .default nodeSources).result = .ok run.files ∧
      TransGen (Go.Holds run.decls) "Node" "Node" := by
  obtain ⟨files, h⟩ : ∃ files, (compileSources .default nodeSources).result = .ok files :=
    Outcome.exists_eq_ok_of_isOk (by decide +kernel)
  obtain ⟨run, rfl⟩ := result_compileSources_eq_ok_iff.1 h
  have hmem : nodeType ∈ (Source.survivors nodeSources).flatten := List.mem_cons_self
  have hstruct : Source.HasStruct nodeSources _ _ _ := .record hmem rfl
  obtain ⟨path, i, hwin⟩ := Source.exists_winning_of_survivor hmem
  have hparse : TypeExpr.parse "Node" = .ok (.named "Node") := by decide +kernel
  refine ⟨run, h, .single (run.holds_iff.2 ⟨⟨_, _, hstruct, Or.inr ?_⟩, _, _, hstruct⟩)⟩
  exact ⟨_, List.mem_cons_self, _, ⟨_, hparse, rfl⟩, .data hwin Registry.kind_typeEntry_ne_remote⟩

end Compilation

end GoBindings
