import GoBindings.Go.Syntax
import Mathlib.Data.List.Nodup

set_option autoImplicit false

/-! # What a package makes of its declarations

Two rules of the Go language, over the declarations of a package. An interface has its own methods
and those of all interfaces that it embeds, directly or not (`expand`). And `x.name`, for a pointer
`x` to a struct, is the member of that name that lies least deep among the fields and methods of the
struct, of the structs that it embeds, of those that these embed, and so on (`Selects`). -/

namespace GoBindings.Go

/-! ## Interfaces -/

/-- An interface as it is declared. -/
structure Interface where
  name : String
  embeds : List String
  methods : List Signature
deriving DecidableEq, Repr

/-- The interface that a declaration declares under a name. -/
def Decl.interfaceNamed (name : String) : Decl → List Interface
  | .type { doc := _, name := n, body := .interface embeds methods } =>
    if n = name then [⟨n, embeds, methods⟩] else []
  | _ => []

theorem Decl.interfaceNamed_eq_nil {name : String} {d : Decl}
    (h : ∀ t, d = .type t → t.name ≠ name) : d.interfaceNamed name = [] := by
  unfold interfaceNamed
  split
  · next n embeds methods => exact if_neg (h _ rfl)
  · rfl

def interfacesNamed (decls : List Decl) (name : String) : List Interface :=
  decls.flatMap (Decl.interfaceNamed name)

/-- The interface of a name, and after it all that it embeds, down to a depth. There is no answer if
    the depth is too small, or if a name on the way is not that of one interface. -/
def expand (decls : List Decl) : Nat → String → Option (List Interface)
  | 0, _ => none
  | depth + 1, name =>
    match interfacesNamed decls name with
    | [i] => do
      let embedded ← i.embeds.mapM (expand decls depth)
      return i :: embedded.flatten
    | _ => none

/-- An interface that embeds nothing is all there is. -/
theorem expand_of_leaf {decls : List Decl} {name : String} {i : Interface}
    (h : interfacesNamed decls name = [i]) (hembeds : i.embeds = []) (depth : Nat) :
    expand decls (depth + 1) name = some [i] := by
  simp [expand, h, hembeds]

theorem expand_of_embeds {decls : List Decl} {name base : String} {i : Interface}
    {met : List Interface} {depth : Nat} (h : interfacesNamed decls name = [i])
    (hembeds : i.embeds = [base]) (hbase : expand decls depth base = some met) :
    expand decls (depth + 1) name = some (i :: met) := by
  simp [expand, h, hembeds, hbase]

theorem mapM_eq_some_mono {f g : String → Option (List Interface)} {names : List String}
    {mets : List (List Interface)} (hfg : ∀ name met, f name = some met → g name = some met)
    (h : names.mapM f = some mets) : names.mapM g = some mets := by
  induction names generalizing mets with
  | nil => exact h
  | cons name names ih =>
    simp only [List.mapM_cons, Option.bind_eq_bind, Option.bind_eq_some_iff] at h ⊢
    obtain ⟨met, hmet, rest, hrest, hmets⟩ := h
    exact ⟨met, hfg name met hmet, rest, ih hrest, hmets⟩

/-- A greater depth keeps an answer. -/
theorem expand_succ {decls : List Decl} {depth : Nat} {name : String} {met : List Interface}
    (h : expand decls depth name = some met) : expand decls (depth + 1) name = some met := by
  induction depth generalizing name met with
  | zero => exact absurd h (by simp [expand])
  | succ depth ih =>
    rw [expand] at h ⊢
    split at h
    · next i hi =>
      obtain ⟨embedded, hembedded, hmet⟩ := Option.bind_eq_some_iff.1 h
      exact Option.bind_eq_some_iff.2 ⟨embedded, mapM_eq_some_mono (fun _ _ => ih) hembedded, hmet⟩
    · exact absurd h (by simp)

theorem expand_mono {decls : List Decl} {depth depth' : Nat} {name : String}
    {met : List Interface} (hle : depth ≤ depth') (h : expand decls depth name = some met) :
    expand decls depth' name = some met := by
  induction hle with
  | refl => exact h
  | step _ ih => exact expand_succ ih

/-! ## Selectors -/

/-- What a selector may find. -/
inductive Member
  | field (f : Field)
  | method (f : Func)
deriving Repr

/-- The declared type that a type is, or points to. -/
def Ty.declared? : Ty → Option String
  | named name => some name
  | pointer (named name) => some name
  | _ => none

/-- A field goes by its name, an embedded one by that of its type. -/
def Field.goesBy? (f : Field) : Option String := f.name.or f.type.declared?

/-- The struct that a field embeds. -/
def Field.embeds? (f : Field) : Option String :=
  match f.name with
  | some _ => none
  | none => f.type.declared?

/-- The fields that a declaration gives to a type. -/
def Decl.fieldsOf (type : String) : Decl → List Field
  | .type { doc := _, name := n, body := .struct fields } => if n = type then fields else []
  | _ => []

theorem Decl.fieldsOf_eq_nil {type : String} {d : Decl} (h : ∀ t, d = .type t → t.name ≠ type) :
    d.fieldsOf type = [] := by
  unfold fieldsOf
  split
  · next n fields => exact if_neg (h _ rfl)
  · rfl

/-- The methods that a declaration gives to a type, or to pointers to it. -/
def Decl.methodsOf (type : String) : Decl → List Func
  | .func f => if (f.receiver.bind fun p => p.type.declared?) = some type then [f] else []
  | _ => []

theorem Decl.methodsOf_eq_nil {type : String} {d : Decl}
    (h : ∀ f, d = .func f → (f.receiver.bind fun p => p.type.declared?) ≠ some type) :
    d.methodsOf type = [] := by
  unfold methodsOf
  split
  · next f => exact if_neg (h f rfl)
  · rfl

/-- The fields and methods of a type itself, each with the name it goes by. -/
def ownMembers (decls : List Decl) (type : String) : List (String × Member) :=
  (decls.flatMap (Decl.fieldsOf type)).filterMap (fun f => f.goesBy?.map fun n => (n, .field f)) ++
    (decls.flatMap (Decl.methodsOf type)).map fun f => (f.name, .method f)

/-- The structs that a type embeds. -/
def embeddedIn (decls : List Decl) (type : String) : List String :=
  (decls.flatMap (Decl.fieldsOf type)).filterMap Field.embeds?

/-- The members of a name that lie at a depth below a type. -/
def membersAt (decls : List Decl) (name : String) : Nat → String → List Member
  | 0, type => ((ownMembers decls type).filter fun m => m.1 = name).map Prod.snd
  | depth + 1, type => (embeddedIn decls type).flatMap (membersAt decls name depth)

/-- For a pointer `x` to `type`, `x.name` is `m`: the one member that lies least deep. -/
def Selects (decls : List Decl) (type name : String) (m : Member) : Prop :=
  ∃ depth, membersAt decls name depth type = [m] ∧
    ∀ d < depth, membersAt decls name d type = []

theorem Selects.unique {decls : List Decl} {type name : String} {m m' : Member}
    (h : Selects decls type name m) (h' : Selects decls type name m') : m = m' := by
  obtain ⟨depth, hm, hless⟩ := h
  obtain ⟨depth', hm', hless'⟩ := h'
  have hdepth : depth = depth' := by
    rcases Nat.lt_trichotomy depth depth' with hlt | heq | hlt
    · exact absurd ((hless' depth hlt).symm.trans hm) (by simp)
    · exact heq
    · exact absurd ((hless depth' hlt).symm.trans hm') (by simp)
  subst hdepth
  simpa using hm.symm.trans hm'

/-- A member of the type itself is what is selected. -/
theorem selects_of_own {decls : List Decl} {type name : String} {m : Member}
    (h : membersAt decls name 0 type = [m]) : Selects decls type name m :=
  ⟨0, h, fun d hd => absurd hd (Nat.not_lt_zero d)⟩

/-- What a type does not have itself, it has from the one struct that it embeds. -/
theorem selects_iff_of_embedded {decls : List Decl} {type base name : String} {m : Member}
    (hown : membersAt decls name 0 type = []) (hbase : embeddedIn decls type = [base]) :
    Selects decls type name m ↔ Selects decls base name m := by
  have hbelow : ∀ d, membersAt decls name (d + 1) type = membersAt decls name d base := by
    intro d
    rw [membersAt, hbase, List.flatMap_singleton]
  constructor
  · rintro ⟨depth, hm, hless⟩
    cases depth with
    | zero => exact absurd (hown.symm.trans hm) (by simp)
    | succ depth =>
      refine ⟨depth, (hbelow depth).symm.trans hm, fun d hd => ?_⟩
      exact (hbelow d).symm.trans (hless (d + 1) (Nat.succ_lt_succ hd))
  · rintro ⟨depth, hm, hless⟩
    refine ⟨depth + 1, (hbelow depth).trans hm, fun d hd => ?_⟩
    cases d with
    | zero => exact hown
    | succ d => exact (hbelow d).trans (hless d (Nat.lt_of_succ_lt_succ hd))

/-! ## Implementing -/

/-- Two signatures have the same types. Names, also those of parameters, do not matter. -/
def Signature.SameTypes (a b : Signature) : Prop :=
  a.params.map Param.type = b.params.map Param.type ∧ a.results = b.results

def Func.signature (f : Func) : Signature where
  name := f.name
  params := f.params
  results := f.results

/-- Pointers to a type have a method as a signature asks for it. -/
def Provides (decls : List Decl) (type : String) (sig : Signature) : Prop :=
  ∃ f, Selects decls type sig.name (.method f) ∧ f.signature.SameTypes sig

/-- Pointers to a type have every method that is declared in an interface. -/
def Implements (decls : List Decl) (type interface : String) : Prop :=
  ∀ i ∈ interfacesNamed decls interface, ∀ sig ∈ i.methods, Provides decls type sig

/-- Pointers to a type have every method of an interface, those that it embeds included. -/
def Satisfies (decls : List Decl) (type interface : String) : Prop :=
  ∃ depth met, expand decls depth interface = some met ∧
    ∀ i ∈ met, ∀ sig ∈ i.methods, Provides decls type sig

/-- What an interface expands to at some depth is all that has to be provided. -/
theorem satisfies_iff {decls : List Decl} {type interface : String} {depth : Nat}
    {met : List Interface} (hmet : expand decls depth interface = some met) :
    Satisfies decls type interface ↔
      ∀ sig ∈ met.flatMap Interface.methods, Provides decls type sig := by
  constructor
  · rintro ⟨depth', met', hmet', hall⟩ sig hsig
    -- at the greater of the two depths both answers stand
    have hleft := expand_mono (Nat.le_max_left depth depth') hmet
    have hright := expand_mono (Nat.le_max_right depth depth') hmet'
    obtain rfl := Option.some.inj (hleft.symm.trans hright)
    obtain ⟨i, hi, hsig⟩ := List.mem_flatMap.1 hsig
    exact hall i hi sig hsig
  · intro hall
    refine ⟨depth, met, hmet, fun i hi sig hsig => ?_⟩
    exact hall sig (List.mem_flatMap.2 ⟨i, hi, hsig⟩)

theorem provides_iff_of_embedded {decls : List Decl} {type base : String} {sig : Signature}
    (hown : membersAt decls sig.name 0 type = []) (hbase : embeddedIn decls type = [base]) :
    Provides decls type sig ↔ Provides decls base sig := by
  unfold Provides
  simp only [selects_iff_of_embedded hown hbase]

theorem provides_iff_of_own {decls : List Decl} {type : String} {sig : Signature} {f : Func}
    (hown : membersAt decls sig.name 0 type = [.method f]) :
    Provides decls type sig ↔ f.signature.SameTypes sig := by
  constructor
  · rintro ⟨g, hselects, htypes⟩
    cases hselects.unique (selects_of_own hown)
    exact htypes
  · intro htypes
    exact ⟨f, selects_of_own hown, htypes⟩

theorem not_provides_of_field {decls : List Decl} {type : String} {sig : Signature} {f : Field}
    (hown : membersAt decls sig.name 0 type = [.field f]) : ¬ Provides decls type sig := by
  rintro ⟨g, hselects, -⟩
  exact absurd (hselects.unique (selects_of_own hown)) Member.noConfusion

/-! ## Members of the type itself -/

theorem membersAt_zero_eq_nil_iff {decls : List Decl} {type name : String} :
    membersAt decls name 0 type = [] ↔ name ∉ (ownMembers decls type).map Prod.fst := by
  rw [membersAt, List.map_eq_nil_iff, List.filter_eq_nil_iff, List.mem_map]
  constructor
  · rintro h ⟨m, hm, hname⟩
    exact h m hm (decide_eq_true hname)
  · intro h m hm hname
    exact h ⟨m, hm, of_decide_eq_true hname⟩

/-- A name that one member goes by picks it. -/
theorem filter_name_eq_singleton {members : List (String × Member)} {name : String} {m : Member}
    (hcount : (members.map Prod.fst).count name ≤ 1) (hm : (name, m) ∈ members) :
    (members.filter fun m => m.1 = name).map Prod.snd = [m] := by
  induction members with
  | nil => exact absurd hm List.not_mem_nil
  | cons a members ih =>
    rw [List.map_cons] at hcount
    rcases List.mem_cons.1 hm with rfl | hm
    · have hrest : (members.filter fun m => m.1 = name) = [] := by
        rw [List.count_cons_self] at hcount
        have hnone : name ∉ members.map Prod.fst := List.count_eq_zero.1 (by omega)
        refine List.filter_eq_nil_iff.2 fun b hb heq => hnone ?_
        exact List.mem_map.2 ⟨b, hb, of_decide_eq_true heq⟩
      simp [hrest]
    · have hne : a.1 ≠ name := by
        intro heq
        have hpos : 0 < (members.map Prod.fst).count name :=
          List.count_pos_iff.2 (List.mem_map.2 ⟨_, hm, rfl⟩)
        rw [heq, List.count_cons_self] at hcount
        omega
      rw [List.count_cons_of_ne hne] at hcount
      rw [List.filter_cons_of_neg (by simpa using hne)]
      exact ih hcount hm

end GoBindings.Go
