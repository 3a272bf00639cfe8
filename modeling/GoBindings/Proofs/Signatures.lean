import GoBindings.Proofs.Declarations
import GoBindings.Proofs.Stages

set_option autoImplicit false

/-! # Signatures of methods

`HasSignature` says what a method of a description looks like in Go, from its texts and from what a
registry knows: its exported name, its parameters in order, and its result followed by an error. The
stages that a method goes through give it this signature (`hasSignature_of_made`), and there is no
other (`HasSignature.unique`). -/

namespace GoBindings

open Outcome

/-! ## What descriptions are understood as -/

namespace Interface

theorem eq_ok_of_parseType {path : Path} {place : Place} {text : String} {e : TypeExpr}
    (h : (parseType path place text).result = .ok e) : TypeExpr.parse text = .ok e := by
  unfold parseType at h
  cases hparse : TypeExpr.parse text with
  | error error =>
    rw [hparse] at h
    cases h
  | ok type =>
    rw [hparse] at h
    cases h
    rfl

/-- The type expression that a property is written with. -/
def Denoted (p : Schema.Property) (type : TypeExpr) : Prop :=
  ∃ e, TypeExpr.parse p.type = .ok e ∧ type = if p.optional then e.asOptional else e

theorem Denoted.unique {p : Schema.Property} {type type' : TypeExpr} (h : Denoted p type)
    (h' : Denoted p type') : type = type' := by
  obtain ⟨e, hparse, rfl⟩ := h
  obtain ⟨e', hparse', rfl⟩ := h'
  obtain rfl := Except.ok.inj (hparse.symm.trans hparse')
  rfl

theorem Field.name_type_of_ofProperty {path : Path} {place : Place} {p : Schema.Property}
    {f : Field} (h : (Field.ofProperty path place p).result = .ok f) :
    f.name = p.name ∧ Denoted p f.type := by
  unfold Field.ofProperty at h
  simp only [Logged.result_bind, bind_eq_ok_iff] at h
  obtain ⟨e, he, default, -, hf⟩ := h
  cases hf
  exact ⟨rfl, e, eq_ok_of_parseType he, rfl⟩

end Interface

/-- The type of a result as it is written; none if there are only blanks. -/
def Schema.Method.resultText? (m : Schema.Method) : Option String :=
  match m.result with
  | none => none
  | some result => if (Text.trim result.type.toList).isEmpty then none else some result.type

namespace Interface

theorem Result.type_of_ofSchema {path : Path} {place : Place} {m : Schema.Method}
    {result : Option Result} (h : (Result.ofSchema path place m.result).result = .ok result) :
    match m.resultText? with
    | none => result = none
    | some text => ∃ r, result = some r ∧ TypeExpr.parse text = .ok r.type := by
  unfold Schema.Method.resultText?
  cases hm : m.result with
  | none =>
    rw [hm] at h
    cases h
    rfl
  | some written =>
    rw [hm] at h
    unfold Result.ofSchema at h
    by_cases hblank : (Text.trim written.type.toList).isEmpty = true
    · simp only [if_pos hblank] at h ⊢
      cases h
      rfl
    · simp only [if_neg hblank, Logged.result_bind, bind_eq_ok_iff] at h ⊢
      obtain ⟨e, he, hresult⟩ := h
      cases hresult
      exact ⟨_, rfl, eq_ok_of_parseType he⟩

theorem Method.parts_of_ofSchema {path : Path} {owner : String} {m : Schema.Method} {k : Method}
    (h : (Method.ofSchema path owner m).result = .ok k) :
    k.name = m.name ∧
      List.Forall₂ (fun p f => f.name = p.name ∧ Denoted p f.type) m.params k.params ∧
      (Result.ofSchema path (.result owner m.name) m.result).result = .ok k.result := by
  unfold Method.ofSchema at h
  simp only [Logged.result_bind, bind_eq_ok_iff, Logged.result_mapM_eq_ok_iff] at h
  obtain ⟨params, hparams, result, hresult, hk⟩ := h
  cases hk
  exact ⟨rfl, hparams.imp fun _ _ hp => Field.name_type_of_ofProperty hp, hresult⟩

/-- A class has the properties and methods of its description, one for one and in order. -/
theorem Class.members_of_ofSchema {path : Path} {c : Schema.RemoteClass} {k : Class}
    (h : (Class.ofSchema path c).result = .ok k) :
    List.Forall₂ (fun (p : Schema.Property) (f : Field) => f.name = p.name)
        c.properties k.properties ∧
      List.Forall₂ (fun m n => (Method.ofSchema path c.name m).result = .ok n)
        c.methods k.methods := by
  unfold Class.ofSchema at h
  simp only [Logged.result_bind, bind_eq_ok_iff, Logged.result_mapM_eq_ok_iff] at h
  obtain ⟨properties, hproperties, methods, hmethods, params, -, hk⟩ := h
  cases hk
  exact ⟨hproperties.imp fun _ _ hp => (Field.name_type_of_ofProperty hp).1, hmethods⟩

end Interface

/-! ## Types by what a registry knows -/

namespace Binding

/-- What a type expression stands for. -/
inductive Denotes (r : Registry) : TypeExpr → Resolved → Prop
  | primitive (p : Primitive) : Denotes r (.primitive p) (.primitive p)
  | named {name : String} {entry : Entry} (h : r.find? name = some entry) :
      Denotes r (.named name) (Resolved.ofEntry name entry)
  | collection {item : TypeExpr} {t : Resolved} (h : Denotes r item t) :
      Denotes r (.collection item) (.collection t)
  | optional {inner : TypeExpr} {t : Resolved} (h : Denotes r inner t) :
      Denotes r (.optional inner) (.optional t)

theorem Denotes.of_ofType {r : Registry} {place : Place} {e : TypeExpr} {t : Resolved}
    (h : Resolved.ofType r place e = .ok t) : Denotes r e t := by
  induction e generalizing t with
  | primitive p =>
    cases h
    exact .primitive p
  | named name =>
    obtain ⟨entry, hentry, rfl⟩ := map_eq_ok_iff.1 h
    exact .named (Registry.resolve_eq_ok_iff.1 hentry)
  | collection item ih =>
    obtain ⟨i, hi, rfl⟩ := map_eq_ok_iff.1 h
    exact .collection (ih hi)
  | optional inner ih =>
    obtain ⟨i, hi, rfl⟩ := map_eq_ok_iff.1 h
    exact .optional (ih hi)

/-- What the type without its optional markers stands for. -/
theorem Denotes.required {r : Registry} {e : TypeExpr} {t : Resolved} (h : Denotes r e t) :
    Denotes r e.required t.required := by
  induction h with
  | primitive p => exact .primitive p
  | @named name entry h =>
    have hplain : (Resolved.ofEntry name entry).required = Resolved.ofEntry name entry := by
      unfold Resolved.ofEntry
      split <;> rfl
    rw [hplain]
    exact .named h
  | collection h _ => exact .collection h
  | optional _ ih => exact ih

theorem Denotes.unique {r : Registry} {e : TypeExpr} {t t' : Resolved} (h : Denotes r e t)
    (h' : Denotes r e t') : t = t' := by
  induction h generalizing t' with
  | primitive p =>
    cases h'
    rfl
  | named hname =>
    cases h' with
    | named hname' => rw [Option.some.inj (hname.symm.trans hname')]
  | collection _ ih =>
    cases h' with
    | collection h' => rw [ih h']
  | optional _ ih =>
    cases h' with
    | optional h' => rw [ih h']

/-! ## Signatures -/

/-- The parameter of a stub for a parameter of a description. -/
def HasParam (r : Registry) (style : OptionalStyle) (p : Schema.Property) (g : Go.Param) : Prop :=
  g.name = Identifier.param p.name ∧
    ∃ e t, Interface.Denoted p e ∧ Denotes r e t ∧ g.type = t.goType style

theorem HasParam.unique {r : Registry} {style : OptionalStyle} {p : Schema.Property}
    {g g' : Go.Param} (h : HasParam r style p g) (h' : HasParam r style p g') : g = g' := by
  obtain ⟨hname, e, t, he, ht, htype⟩ := h
  obtain ⟨hname', e', t', he', ht', htype'⟩ := h'
  obtain rfl := he.unique he'
  obtain rfl := ht.unique ht'
  cases g
  cases g'
  simp only [Go.Param.mk.injEq]
  exact ⟨hname.trans hname'.symm, htype.trans htype'.symm⟩

/-- The signature of a method in Go. -/
structure HasSignature (r : Registry) (code : CodeSettings) (m : Schema.Method)
    (sig : Go.Signature) : Prop where
  name : sig.name = Identifier.exported m.name
  params : List.Forall₂ (HasParam r code.optionalStyle) m.params sig.params
  results : match m.resultText? with
    | none => sig.results = [.error]
    | some text => ∃ e t, TypeExpr.parse text = .ok e ∧ Denotes r e t ∧
        sig.results = [t.returnType code, .error]

theorem HasSignature.unique {r : Registry} {code : CodeSettings} {m : Schema.Method}
    {sig sig' : Go.Signature} (h : HasSignature r code m sig) (h' : HasSignature r code m sig') :
    sig = sig' := by
  have hparams : sig.params = sig'.params :=
    List.right_unique_forall₂' (fun _ _ _ hg hg' => hg.unique hg') h.params h'.params
  have hresults : sig.results = sig'.results := by
    have hr := h.results
    have hr' := h'.results
    cases htext : m.resultText? with
    | none =>
      rw [htext] at hr hr'
      exact hr.trans hr'.symm
    | some text =>
      rw [htext] at hr hr'
      obtain ⟨e, t, hparse, ht, hr⟩ := hr
      obtain ⟨e', t', hparse', ht', hr'⟩ := hr'
      obtain rfl := Except.ok.inj (hparse.symm.trans hparse')
      obtain rfl := ht.unique ht'
      exact hr.trans hr'.symm
  cases sig
  cases sig'
  simp only [Go.Signature.mk.injEq]
  exact ⟨h.name.trans h'.name.symm, hparams, hresults⟩

theorem map_goName_of_signatures {r : Registry} {code : CodeSettings} {ms : List Schema.Method}
    {ns : List Method}
    (h : List.Forall₂ (HasSignature r code) ms (ns.map fun n => n.signature code)) :
    ns.map Method.goName = ms.map fun m => Identifier.exported m.name := by
  rw [List.forall₂_map_right_iff] at h
  induction h with
  | nil => rfl
  | cons hm _ ih =>
    rw [List.map_cons, List.map_cons, ih]
    exact congrArg (· :: _) hm.name

/-- **The stages of a method give it its signature.** -/
theorem hasSignature_of_made {r : Registry} {code : CodeSettings} {path : Path} {owner : String}
    {m : Schema.Method} {k : Interface.Method} {n : Method}
    (hk : (Interface.Method.ofSchema path owner m).result = .ok k)
    (hn : Method.ofInterface r owner k = .ok n) : HasSignature r code m (n.signature code) := by
  obtain ⟨hname, hfields, hwritten⟩ := Interface.Method.parts_of_ofSchema hk
  obtain ⟨params, result, hparams, -, hresult, rfl⟩ := Method.ofInterface_eq_ok_iff.1 hn
  refine ⟨congrArg Identifier.exported hname, ?_, ?_⟩
  · refine List.forall₂_map_right_iff.2 ((forall₂_trans hfields hparams).imp ?_)
    rintro p g ⟨f, ⟨hf, hdenoted⟩, hg⟩
    obtain ⟨t, ht, hg⟩ := bind_eq_ok_iff.1 hg
    cases hg
    exact ⟨congrArg Identifier.param hf, f.type, t, hdenoted, .of_ofType ht, rfl⟩
  · have htype := Interface.Result.type_of_ofSchema hwritten
    cases htext : m.resultText? with
    | none =>
      rw [htext] at htype
      rw [show k.result = none from htype] at hresult
      cases hresult
      rfl
    | some text =>
      rw [htext] at htype
      obtain ⟨written, hsome, hparse⟩ := htype
      rw [hsome] at hresult
      obtain ⟨t, ht, rfl⟩ := map_eq_ok_iff.1 hresult
      exact ⟨written.type, t, hparse, .of_ofType ht, rfl⟩

end Binding

end GoBindings
