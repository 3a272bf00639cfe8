import GoBindings.Proofs.Imports
import GoBindings.Proofs.References

set_option autoImplicit false

/-! # Names in scope

Bodies are put together from names that the generator chooses and names that a description gives to
parameters. `Go.WellScoped` states what Go demands of the names in a block: what is used has been
declared before, and what is declared is read afterwards. Every stub keeps to it
(`Method.stub_well_scoped`). Parameters stay clear of all names that the generator chooses, but a
parameter may be called like the declared type of the result, and then the body takes the parameter
for the type (`Method.params_capture_no_type_iff`). -/

namespace GoBindings

open Go (Expr Stmt)

/-! ## Rules of scope -/

namespace Go

namespace Expr

/-- The name that the expression is, if it is one. -/
def ownIdent : Expr → List String
  | ident name => [name]
  | _ => []

/-- The names in an expression. -/
def idents : Expr → List String := collect ownIdent

section

variable (isType : String → Prop) (vars : List String)

mutual

/-- Every name in the expression is a variable, the function or one of the packages that are always
    there, or the type to which something is converted. -/
def Scoped : Expr → Prop
  | ident name => name ∈ vars ∨ name ∈ ["len", "fmt", "reflect"]
  | literal _ => True
  | select x _ => x.Scoped
  | call function args =>
    (function.Scoped ∨ (∃ name, function = ident name ∧ isType name) ∧ args.length = 1) ∧
      ScopedArgs args
  | index x i => x.Scoped ∧ i.Scoped
  | mapOf _ entries => ScopedEntries entries
  | emptyOf _ => True
  | compare left _ right => left.Scoped ∧ right.Scoped
  | not x => x.Scoped
  | addressOf x => x.Scoped
  | assertType x _ => x.Scoped
  | receive channel => channel.Scoped

def ScopedArgs : List Expr → Prop
  | [] => True
  | x :: xs => x.Scoped ∧ ScopedArgs xs

def ScopedEntries : List (Expr × Expr) → Prop
  | [] => True
  | (key, value) :: entries => key.Scoped ∧ value.Scoped ∧ ScopedEntries entries

end

@[simp]
theorem scoped_ident {name : String} :
    (ident name).Scoped isType vars ↔ name ∈ vars ∨ name ∈ ["len", "fmt", "reflect"] := by
  rw [Scoped]

@[simp]
theorem scoped_string (s : String) : (string s).Scoped isType vars := by
  rw [string, Scoped]
  trivial

end

end Expr

namespace Stmt

mutual

/-- The names that are read; a name to which something is assigned is not. -/
def reads : Stmt → List String
  | define _ value => value.idents
  | assign (.ident _) value => value.idents
  | assign target value => target.idents ++ value.idents
  | .return values => values.flatMap Expr.idents
  | ifThen condition body => condition.idents ++ readsOfAll body
  | forRange _ _ items body => items.idents ++ readsOfAll body
  | declare _ _ => []
  | comment _ => []

def readsOfAll : List Stmt → List String
  | [] => []
  | s :: rest => s.reads ++ readsOfAll rest

end

@[simp]
theorem readsOfAll_eq (body : List Stmt) : readsOfAll body = body.flatMap reads := by
  induction body with
  | nil => rfl
  | cons s rest ih => rw [readsOfAll, ih, List.flatMap_cons]

end Stmt

/-- The variables that are made by names; the blank name makes none. -/
def variablesOf (names : List String) : List String := names.filter (· ≠ "_")

theorem variablesOf_singleton_subset {name : String} {names : List String} (h : name ∈ names) :
    variablesOf [name] ⊆ names := by
  intro other hother
  rwa [List.mem_singleton.1 (List.mem_of_mem_filter hother)]

/-- The names that a function is called with: those of its receiver and of its parameters. -/
def Func.given (f : Func) : List String :=
  f.receiver.toList.map Param.name ++ f.params.map Param.name

/-- A block in which all names are in scope, and every variable is read where it is in scope. -/
inductive WellScoped (isType : String → Prop) : List String → List Stmt → Prop
  | nil {vars : List String} : WellScoped isType vars []
  | define {vars names : List String} {value : Expr} {rest : List Stmt}
      (hvalue : value.Scoped isType vars) (hread : variablesOf names ⊆ rest.flatMap Stmt.reads)
      (hrest : WellScoped isType (variablesOf names ++ vars) rest) :
      WellScoped isType vars (.define names value :: rest)
  | assign {vars : List String} {target value : Expr} {rest : List Stmt}
      (htarget : target.Scoped isType vars) (hvalue : value.Scoped isType vars)
      (hrest : WellScoped isType vars rest) :
      WellScoped isType vars (.assign target value :: rest)
  | return {vars : List String} {values : List Expr} {rest : List Stmt}
      (hvalues : ∀ x ∈ values, x.Scoped isType vars) (hrest : WellScoped isType vars rest) :
      WellScoped isType vars (.return values :: rest)
  | ifThen {vars : List String} {condition : Expr} {body rest : List Stmt}
      (hcondition : condition.Scoped isType vars) (hbody : WellScoped isType vars body)
      (hrest : WellScoped isType vars rest) :
      WellScoped isType vars (.ifThen condition body :: rest)
  | forRange {vars : List String} {key value : String} {items : Expr} {body rest : List Stmt}
      (hitems : items.Scoped isType vars)
      (hread : variablesOf [key, value] ⊆ body.flatMap Stmt.reads)
      (hbody : WellScoped isType (variablesOf [key, value] ++ vars) body)
      (hrest : WellScoped isType vars rest) :
      WellScoped isType vars (.forRange key value items body :: rest)
  | declare {vars : List String} {name : String} {type : Ty} {rest : List Stmt}
      (hread : variablesOf [name] ⊆ rest.flatMap Stmt.reads)
      (hrest : WellScoped isType (variablesOf [name] ++ vars) rest) :
      WellScoped isType vars (.declare name type :: rest)
  | comment {vars : List String} {text : String} {rest : List Stmt}
      (hrest : WellScoped isType vars rest) : WellScoped isType vars (.comment text :: rest)

end Go

namespace Binding

/-! ## Stubs are well scoped -/

section

variable {isType : String → Prop} {vars : List String}

namespace Param

variable {p : Param} (style : OptionalStyle)

theorem scoped_guard (h : p.goName ∈ vars) : (p.guard style).Scoped isType vars := by
  unfold guard
  split
  · simp [ident, Expr.nil, Expr.Scoped, h]
  · split <;> simp [ident, Expr.nil, Expr.zero, Expr.Scoped, Expr.ScopedArgs, h]

theorem scoped_wireValue (h : p.goName ∈ vars) : p.wireValue.Scoped isType vars := by
  unfold wireValue
  split <;> simp [textForm, ident, Expr.Scoped, Expr.ScopedArgs, h]

theorem wellScoped_send (h : p.goName ∈ vars) (hparams : "params" ∈ vars) {rest : List Stmt}
    (hrest : Go.WellScoped isType vars rest) :
    Go.WellScoped isType vars (p.send style :: rest) := by
  have htarget : (Expr.index (.ident "params") (.string p.wireName)).Scoped isType vars := by
    simp [Expr.Scoped, hparams]
  exact .ifThen (scoped_guard style h) (.assign htarget (scoped_wireValue h) .nil) hrest

end Param

/-- The arguments are put into their map one after the other. -/
theorem wellScoped_sends (style : OptionalStyle) {params : List Param}
    (h : ∀ p ∈ params, p.goName ∈ vars) (hparams : "params" ∈ vars) {rest : List Stmt}
    (hrest : Go.WellScoped isType vars rest) :
    Go.WellScoped isType vars (params.map (fun p => p.send style) ++ rest) := by
  induction params with
  | nil => exact hrest
  | cons p params ih =>
    rw [List.forall_mem_cons] at h
    exact Param.wellScoped_send style h.1 hparams (ih h.2)

theorem scoped_responseError (h : "response" ∈ vars) : responseError.Scoped isType vars := by
  simp [responseError, Expr.Scoped, h]

theorem Scalar.scoped_value {s : Scalar} (htype : ∀ name ∈ s.convertTo, isType name)
    (h : "value" ∈ vars) : s.value.Scoped isType vars := by
  unfold value
  split
  · next type hconvert => simp [Expr.Scoped, Expr.ScopedArgs, h, htype type hconvert]
  · exact (Expr.scoped_ident isType vars).2 (Or.inl h)

theorem Scalar.value_mem_idents (s : Scalar) : "value" ∈ s.value.idents := by
  unfold value
  split <;> simp [Expr.idents, Expr.collect, Expr.ownIdent]

theorem Scalar.wellScoped_returnStmts {s : Scalar} (htype : ∀ name ∈ s.convertTo, isType name)
    (h : "response" ∈ vars) (type : Go.Ty) :
    Go.WellScoped isType vars (s.returnStmts type) := by
  have hvalue := s.value_mem_idents
  unfold returnStmts
  split
  · refine .define ?_ ?_ (.define ?_ ?_ (.return ?_ .nil))
    · simp [Expr.Scoped, h]
    · simp [Go.variablesOf, Stmt.reads, hvalue]
    · exact scoped_value htype (by simp [Go.variablesOf])
    · simp [Go.variablesOf, Stmt.reads, Expr.idents, Expr.collect, Expr.ownIdent]
    · simp [Go.variablesOf, Expr.Scoped, scoped_responseError, h]
  · refine .define ?_ ?_ (.return ?_ .nil)
    · simp [Expr.Scoped, h]
    · simp [Go.variablesOf, Stmt.reads, hvalue]
    · have hscoped : s.value.Scoped isType (Go.variablesOf ["value", "_"] ++ vars) :=
        scoped_value htype (by simp [Go.variablesOf])
      simp [hscoped, scoped_responseError, h]

theorem scoped_placeholder (type : Go.Ty) : (placeholder type).Scoped isType vars := by
  cases type <;> simp [placeholder, Expr.Scoped]

/-- The variable of the result is made in one of two ways, and then returned. -/
theorem wellScoped_returnShape (h : "response" ∈ vars) (code : CodeSettings) (t : Resolved) :
    Go.WellScoped isType vars (returnShape code t) := by
  have hret : ∀ error : Expr, error.Scoped isType ("ret" :: vars) →
      Go.WellScoped isType vars
        [if t.required.isRemote then .declare "ret" (t.returnType code)
          else .define ["ret"] (placeholder (t.returnType code)),
          .return [.ident "ret", error]] := by
    intro error herror
    have hread : Go.variablesOf ["ret"] ⊆
        [Stmt.return [.ident "ret", error]].flatMap Stmt.reads := by
      simp [Go.variablesOf, Stmt.reads, Expr.idents, Expr.collect, Expr.ownIdent]
    have hreturn : Go.WellScoped isType (Go.variablesOf ["ret"] ++ vars)
        [.return [.ident "ret", error]] :=
      .return (by simp [Go.variablesOf, herror]) .nil
    split
    · exact .declare hread hreturn
    · exact .define (scoped_placeholder _) hread hreturn
  unfold returnShape
  cases code.returnPolicy with
  | absent =>
    refine .ifThen ?_ (.return ?_ .nil) (hret _ ?_)
    · simp [Expr.Scoped, Expr.nil, scoped_responseError h]
    · simp [Expr.Scoped, Expr.nil, scoped_responseError h]
    · simp [Expr.Scoped, Expr.nil]
  | zeroValue => exact hret _ (scoped_responseError (List.mem_cons_of_mem _ h))

theorem response_mem_reads_returnStmts (code : CodeSettings) (result : Option Resolved) :
    "response" ∈ (returnStmts code result).flatMap Stmt.reads := by
  have hblock := returnBlock_returnStmts code result
  generalize returnStmts code result = block at hblock ⊢
  cases hblock <;>
    simp [Stmt.reads, Scalar.take, failEarly, responseError, Expr.idents, Expr.collect,
      Expr.ownIdent]

/-- Every type to which the result is converted is one. -/
def ConvertsTo (isType : String → Prop) (result : Option Resolved) : Prop :=
  ∀ t ∈ result, ∀ s, t.scalar? = some s → ∀ name ∈ s.convertTo, isType name

theorem wellScoped_returnStmts {result : Option Resolved} (htype : ConvertsTo isType result)
    (h : "response" ∈ vars) (code : CodeSettings) :
    Go.WellScoped isType vars (returnStmts code result) := by
  unfold returnStmts
  split
  · exact .return (by simp [scoped_responseError h]) .nil
  · next t =>
    split
    · next s hs => exact Scalar.wellScoped_returnStmts (htype t rfl s hs) h _
    · exact wellScoped_returnShape h code t

namespace Method

/-- What a body does once the arguments are collected. -/
def request (code : CodeSettings) (m : Method) : List Stmt :=
  .assign (.index (.ident "req") (.string "params")) (.mapOf .payload m.payload) ::
    .comment "call server and wait for the response" ::
    .define ["response"]
      (.receive (.call (.select (.select (.ident "elem") "connection") "Request")
        [.ident "req"])) ::
    returnStmts code m.result

theorem stubBody_eq (code : CodeSettings) (m : Method) :
    m.stubBody code =
      .define ["req"] (.call (.select (.ident "elem") "getInvokeRequest") []) ::
        (m.collectArgs code.optionalStyle ++ m.request code) := by
  simp [stubBody, request]

theorem wellScoped_request {m : Method} (htype : ConvertsTo isType m.result)
    (helem : "elem" ∈ vars) (hreq : "req" ∈ vars) (hparams : m.params ≠ [] → "params" ∈ vars)
    (code : CodeSettings) : Go.WellScoped isType vars (m.request code) := by
  have hpayload : (Expr.mapOf .payload m.payload).Scoped isType vars := by
    unfold payload
    split
    · simp [Expr.Scoped, Expr.ScopedEntries, helem]
    · next hne => simp [Expr.Scoped, Expr.ScopedEntries, helem, hparams (mt List.isEmpty_iff.2 hne)]
  refine .assign ?_ hpayload (.comment (.define ?_ ?_ (wellScoped_returnStmts htype ?_ code)))
  · simp [Expr.Scoped, hreq]
  · simp [Expr.Scoped, Expr.ScopedArgs, helem, hreq]
  · exact Go.variablesOf_singleton_subset (response_mem_reads_returnStmts code m.result)
  · simp [Go.variablesOf]

theorem wellScoped_stubBody {m : Method} (htype : ConvertsTo isType m.result)
    (helem : "elem" ∈ vars) (hparams : ∀ p ∈ m.params, p.goName ∈ vars) (code : CodeSettings) :
    Go.WellScoped isType vars (m.stubBody code) := by
  have hreq : "req" ∈ (m.request code).flatMap Stmt.reads := by
    simp [request, Stmt.reads, Expr.idents, Expr.collect, Expr.ownIdent]
  rw [stubBody_eq]
  refine .define ?_ ?_ ?_
  · simp [Expr.Scoped, Expr.ScopedArgs, helem]
  · exact Go.variablesOf_singleton_subset (List.flatMap_append ▸ List.mem_append_right _ hreq)
  · unfold collectArgs
    split
    · next hempty =>
      refine wellScoped_request htype ?_ ?_ ?_ code
      · simp [helem]
      · simp [Go.variablesOf]
      · exact fun hne => absurd (List.isEmpty_iff.1 hempty) hne
    · next hne =>
      have hread : "params" ∈ (m.request code).flatMap Stmt.reads := by
        simp [request, payload, hne, Stmt.reads, Expr.idents, Expr.collect, Expr.ownIdent]
      refine .define ?_ ?_ (wellScoped_sends _ ?_ ?_ (wellScoped_request htype ?_ ?_ ?_ code))
      · simp [Expr.Scoped, Expr.ScopedEntries]
      · exact Go.variablesOf_singleton_subset (List.flatMap_append ▸ List.mem_append_right _ hread)
      · intro p hp
        simp [hparams p hp]
      · simp [Go.variablesOf]
      · simp [helem]
      · simp [Go.variablesOf]
      · intro _
        simp [Go.variablesOf]

end Method

end

/-! ## Types in a registry -/

/-- The Go name of a declared type: a class is used through its capability. -/
inductive DeclaredAs (r : Registry) : String → Prop
  | dataType {name : String} {entry : Entry} (h : r.find? name = some entry)
      (hkind : entry.kind ≠ .remote) : DeclaredAs r name
  | capability {name : String} {entry : Entry} (h : r.find? name = some entry)
      (hkind : entry.kind = .remote) : DeclaredAs r (capabilityName name)

/-- The types to which results are converted: those of whole numbers, and enumerations. -/
inductive Convertible (r : Registry) : String → Prop
  | int : Convertible r "int"
  | int64 : Convertible r "int64"
  | enum {name : String} {entry : Entry} (h : r.find? name = some entry)
      (hkind : entry.kind = .enum) : Convertible r name

namespace Denotes

variable {r : Registry} {e : TypeExpr} {t : Resolved}

theorem predeclared_or_declaredAs (h : Denotes r e t) :
    t.goName ∈ Go.predeclaredTypes ∨ DeclaredAs r t.goName := by
  induction h with
  | primitive p => exact Or.inl (primitiveName_mem p)
  | @named name entry h =>
    right
    unfold Resolved.ofEntry
    cases hkind : entry.kind with
    | enum => exact .dataType h (by simp [hkind])
    | value => exact .dataType h (by simp [hkind])
    | remote => exact .capability h hkind
  | collection _ ih => exact ih
  | optional _ ih => exact ih

theorem enum_of_required {name : String} (h : Denotes r e t) (ht : t.required = .enum name) :
    ∃ entry, r.find? name = some entry ∧ entry.kind = .enum := by
  have hrequired := h.required
  rw [ht] at hrequired
  generalize e.required = inner at hrequired
  generalize hresolved : Resolved.enum name = resolved at hrequired
  cases hrequired with
  | @named other entry hother =>
    unfold Resolved.ofEntry at hresolved
    split at hresolved
    · next hkind =>
      cases hresolved
      exact ⟨entry, hother, hkind⟩
    · cases hresolved
    · cases hresolved
  | primitive => cases hresolved
  | collection => cases hresolved
  | optional => cases hresolved

theorem convertible {s : Scalar} (h : Denotes r e t) (hs : t.scalar? = some s) :
    ∀ name ∈ s.convertTo, Convertible r name := by
  unfold Resolved.scalar? at hs
  split at hs
  all_goals cases hs
  all_goals rintro name ⟨⟩
  · exact .int
  · exact .int64
  · next ht =>
    obtain ⟨entry, hentry, hkind⟩ := h.enum_of_required ht
    exact .enum hentry hkind

end Denotes

namespace Method

variable {registry : Registry} {owner : String} {declared : Interface.Method} {m : Method}

/-- What is said of the result of a method is said of the type that is declared for it. -/
theorem forall_result_iff (h : ofInterface registry owner declared = .ok m) {P : Resolved → Prop} :
    (∀ t ∈ m.result, P t) ↔ ∀ r ∈ declared.result, ∀ t, Denotes registry r.type t → P t := by
  obtain ⟨params, result, -, -, hresult, rfl⟩ := ofInterface_eq_ok_iff.1 h
  cases hdeclared : declared.result with
  | none =>
    rw [hdeclared] at hresult
    cases hresult
    simp
  | some r =>
    rw [hdeclared] at hresult
    obtain ⟨t, ht, rfl⟩ := Outcome.map_eq_ok_iff.1 hresult
    have hdenotes := Denotes.of_ofType ht
    constructor
    · rintro hall _ ⟨⟩ u hu
      rw [hu.unique hdenotes]
      exact hall t rfl
    · rintro hall _ ⟨⟩
      exact hall r rfl t hdenotes

theorem map_goName_params (h : ofInterface registry owner declared = .ok m) :
    m.params.map Param.goName = declared.params.map fun f => Identifier.param f.name := by
  obtain ⟨params, result, hparams, -, -, rfl⟩ := ofInterface_eq_ok_iff.1 h
  rw [← List.forall₂_eq_eq_eq, List.forall₂_map_left_iff, List.forall₂_map_right_iff]
  refine hparams.flip.imp fun p f hf => ?_
  obtain ⟨hwire, hgo⟩ := Param.names_of_ofField hf
  rw [hgo, hwire]

end Method

/-! ## Names of parameters -/

theorem param_not_mem_keywords (name : String) : Identifier.param name ∉ Identifier.keywords := by
  obtain ⟨c, cs, -, -, -, hfree⟩ := Identifier.isValid_iff.1 (Identifier.isValid_param name)
  exact hfree

theorem param_not_mem_predeclaredTypes (name : String) :
    Identifier.param name ∉ Go.predeclaredTypes := by
  have hreserved : ∀ type ∈ Go.predeclaredTypes,
      type ∈ Identifier.reservedLocals ∨ Identifier.isValid type = false := by decide
  intro hmem
  rcases hreserved _ hmem with hlocal | hinvalid
  · exact Identifier.param_not_mem_reservedLocals name hlocal
  · rw [Identifier.isValid_param] at hinvalid
    exact absurd hinvalid (by decide)

namespace Method

variable {registry : Registry} {owner : String} {declared : Interface.Method} {m : Method}

theorem given_stub (code : CodeSettings) (className : String) (m : Method) :
    (m.stub code className).given = "elem" :: m.params.map Param.goName := by
  simp [Go.Func.given, stub, receiver, goParams, Param.goParam, Function.comp_def]

/-- The names of the parameters come from the names in the description. -/
theorem mem_names_params_stub_iff (h : ofInterface registry owner declared = .ok m)
    (code : CodeSettings) (className : String) {name : String} :
    (∃ p ∈ (m.stub code className).params, p.name = name) ↔
      ∃ f ∈ declared.params, Identifier.param f.name = name := by
  have hnames : (m.stub code className).params.map Go.Param.name
      = declared.params.map fun f => Identifier.param f.name := by
    rw [← map_goName_params h]
    simp [stub, goParams, Param.goParam, Function.comp_def]
  rw [← List.mem_map, ← List.mem_map, hnames]

/-- The variables of a body differ from each other. -/
theorem nodup_variables_stubBody (code : CodeSettings) (m : Method) :
    (Go.variablesOf ((m.stubBody code).flatMap Stmt.binds)).Nodup := by
  have hblock := returnBlock_returnStmts code m.result
  unfold stubBody
  simp only [List.flatMap_append, binds_collectArgs]
  generalize returnStmts code m.result = block at hblock ⊢
  cases m.params.isEmpty <;> cases hblock <;>
    simp [Go.variablesOf, Stmt.binds, Stmt.fromStmts, Stmt.ownBinds, Scalar.take, failEarly]

/-- All of them are names that parameters are kept away from. -/
theorem variables_stubBody_subset (code : CodeSettings) (m : Method) :
    ∀ name ∈ Go.variablesOf ((m.stubBody code).flatMap Stmt.binds),
      name ≠ "elem" ∧ name ∈ Identifier.reservedLocals := by
  have hall : ∀ name ∈ ["req", "params", "response", "value", "_", "result", "ret"], name ≠ "_" →
      name ≠ "elem" ∧ name ∈ Identifier.reservedLocals := by decide
  intro name hname
  obtain ⟨hmem, hblank⟩ := List.mem_filter.1 hname
  exact hall name (m.binds_stubBody code hmem) (of_decide_eq_true hblank)

/-- No two names that are in scope anywhere in a stub are the same. -/
theorem nodup_names_stub (h : ofInterface registry owner declared = .ok m) (code : CodeSettings) :
    ("elem" :: m.params.map Param.goName ++
      Go.variablesOf ((m.stubBody code).flatMap Stmt.binds)).Nodup := by
  obtain ⟨hgo, hparams⟩ := names_of_ofInterface h
  have hreserved : ∀ name ∈ m.params.map Param.goName, name ∉ Identifier.reservedLocals := by
    intro name hname
    obtain ⟨p, hp, rfl⟩ := List.mem_map.1 hname
    rw [hgo p hp]
    exact Identifier.param_not_mem_reservedLocals _
  refine List.nodup_append'.2 ⟨?_, m.nodup_variables_stubBody code, ?_⟩
  · refine List.nodup_cons.2 ⟨fun hmem => hreserved "elem" hmem (by decide), hparams⟩
  · intro name hname hlocal
    obtain ⟨helem, hlocal⟩ := m.variables_stubBody_subset code name hlocal
    rcases List.mem_cons.1 hname with rfl | hparam
    · exact helem rfl
    · exact hreserved name hparam hlocal

/-- **Stubs are well scoped.** The names of the receiver, the parameters and the variables of a stub
    differ. Every name in the body is one of them that is in scope, the function `len` or a package,
    or a type of whole numbers or an enumeration to which something is converted, and every variable
    is read after it has been made. No parameter is called like a keyword or like anything of the
    language that the body uses; what else the body has for types is declared. -/
theorem stub_well_scoped (h : ofInterface registry owner declared = .ok m) (code : CodeSettings)
    (className : String) :
    ((m.stub code className).given ++
      Go.variablesOf ((m.stub code className).body.flatMap Stmt.binds)).Nodup ∧
    Go.WellScoped (Convertible registry) (m.stub code className).given
      (m.stub code className).body ∧
    (∀ p ∈ (m.stub code className).params, p.name ∉ Identifier.keywords ∧
      p.name ∉ ["len", "fmt", "reflect", "nil"] ∧ p.name ∉ Go.predeclaredTypes) ∧
    ∀ type ∈ (m.stub code className).body.flatMap Stmt.typeNames,
      type ∈ Go.predeclaredTypes ∨ DeclaredAs registry type := by
  rw [given_stub]
  refine ⟨nodup_names_stub h code, ?_, ?_, ?_⟩
  · have htype : ConvertsTo (Convertible registry) m.result :=
      (forall_result_iff h).2 fun r _ t ht s hs => ht.convertible hs
    refine wellScoped_stubBody htype List.mem_cons_self (fun p hp => ?_) code
    exact List.mem_cons_of_mem _ (List.mem_map_of_mem hp)
  · intro p hp
    have hreserved : ∀ name ∈ ["len", "fmt", "reflect", "nil"],
        name ∈ Identifier.reservedLocals := by decide
    obtain ⟨f, -, hf⟩ := (mem_names_params_stub_iff h code className).1 ⟨p, hp, rfl⟩
    rw [← hf]
    exact ⟨param_not_mem_keywords f.name,
      fun hmem => Identifier.param_not_mem_reservedLocals f.name (hreserved _ hmem),
      param_not_mem_predeclaredTypes f.name⟩
  · intro type htype
    rcases List.mem_append.1 (m.typeNames_stubBody code htype) with hresult | hpredeclared
    · obtain ⟨t, ht, rfl⟩ := List.mem_map.1 hresult
      have hall : ∀ t ∈ m.result, t.goName ∈ Go.predeclaredTypes ∨ DeclaredAs registry t.goName :=
        (forall_result_iff h).2 fun r _ t ht => ht.predeclared_or_declaredAs
      exact hall t (Option.mem_toList.1 ht)
    · exact Or.inl hpredeclared

/-- An enumeration whose name starts with a small letter. -/
def modeRegistry : Registry :=
  Registry.empty.set "mode" ⟨.enum, ⟨"player.kmd.json"⟩, 0, none⟩

/-- A method that takes and returns a mode. -/
def setMode (param : String) : Interface.Method where
  name := "setMode"
  doc := []
  params := [⟨param, .named "mode", none, []⟩, ⟨"value", .primitive .int, some (.int 0), []⟩]
  result := some ⟨.named "mode", []⟩

def resolvedSetMode (param : String) : Method where
  goName := "SetMode"
  wireName := "setMode"
  doc := []
  params := [⟨Identifier.param param, param, .enum "mode"⟩, ⟨"_value", "value", .primitive .int⟩]
  result := some (.enum "mode")

theorem setMode_well_scoped :
    ∃ m, ofInterface modeRegistry "Player" (setMode "type") = .ok m ∧
      (m.stub .default "Player").given = ["elem", "_type", "_value"] ∧
      Go.WellScoped (Convertible modeRegistry) ["elem", "_type", "_value"]
        (m.stub .default "Player").body := by
  have h : ofInterface modeRegistry "Player" (setMode "type") = .ok (resolvedSetMode "type") := rfl
  exact ⟨_, h, rfl, (stub_well_scoped h .default "Player").2.1⟩

end Method

/-! ## Types hidden by parameters -/

theorem Resolved.type_of_scalar? {t : Resolved} {s : Scalar} (h : t.scalar? = some s) :
    s.convertTo.getD s.arrivesAs = t.goName := by
  rw [← goName_required]
  unfold scalar? at h
  split at h
  all_goals cases h
  all_goals
    next heq =>
      rw [heq]
      rfl

/-- A scalar arrives as its type or is converted to it. -/
theorem Scalar.mem_typeNames_returnStmts {s : Scalar} {name : String}
    (h : s.convertTo.getD s.arrivesAs = name) (hlen : name ≠ "len") (type : Go.Ty) :
    name ∈ (s.returnStmts type).flatMap Stmt.typeNames := by
  have hvalue : name = s.arrivesAs ∨ name ∈ s.value.typeNames := by
    unfold value
    cases hconvert : s.convertTo with
    | none =>
      left
      rw [← h, hconvert, Option.getD_none]
    | some target =>
      right
      rw [hconvert, Option.getD_some] at h
      subst h
      simp [Expr.typeNames, Expr.conversion, hlen]
  unfold returnStmts
  split <;> simp [Stmt.typeNames, Expr.typeNames, Go.Ty.names, responseError, hvalue]

namespace Method

variable {registry : Registry} {owner : String} {declared : Interface.Method} {m : Method}

/-- The body of a stub mentions the type of the result. Only `len` always means the function. -/
theorem goName_mem_typeNames_stubBody {t : Resolved} (h : t ∈ m.result) (hlen : t.goName ≠ "len")
    (code : CodeSettings) : t.goName ∈ (m.stubBody code).flatMap Stmt.typeNames := by
  unfold stubBody
  rw [List.flatMap_append]
  refine List.mem_append_right _ ?_
  rw [Option.mem_def.1 h]
  simp only [returnStmts]
  cases hscalar : t.scalar? with
  | none =>
    rw [typeNames_returnShape]
    exact List.mem_singleton_self _
  | some s => exact Scalar.mem_typeNames_returnStmts (Resolved.type_of_scalar? hscalar) hlen _

/-- **When no parameter hides a type.** The types that the body of a stub mentions are out of the
    reach of its parameters exactly if no parameter is called, in Go, like the declared type in the
    result. -/
theorem params_capture_no_type_iff (h : ofInterface registry owner declared = .ok m)
    (code : CodeSettings) (className : String) :
    (∀ p ∈ (m.stub code className).params,
      p.name ∉ (m.stub code className).body.flatMap Stmt.typeNames) ↔
    ∀ r ∈ declared.result, ∀ t, Denotes registry r.type t →
      ∀ f ∈ declared.params, Identifier.param f.name ≠ t.goName := by
  have hfree : ∀ f : Interface.Field, Identifier.param f.name ≠ "len" := fun f heq =>
    Identifier.param_not_mem_reservedLocals f.name (heq ▸ by decide)
  rw [← forall_result_iff h]
  constructor
  · intro hall t ht f hf heq
    obtain ⟨p, hp, hname⟩ := (mem_names_params_stub_iff h code className).2 ⟨f, hf, rfl⟩
    refine hall p hp ?_
    rw [hname, heq]
    exact goName_mem_typeNames_stubBody ht (heq ▸ hfree f) code
  · intro hall p hp hmem
    obtain ⟨f, hf, hname⟩ := (mem_names_params_stub_iff h code className).1 ⟨p, hp, rfl⟩
    rcases List.mem_append.1 (m.typeNames_stubBody code hmem) with hresult | hpredeclared
    · obtain ⟨t, ht, heq⟩ := List.mem_map.1 hresult
      exact hall t (Option.mem_toList.1 ht) f hf (hname.trans heq.symm)
    · rw [← hname] at hpredeclared
      exact param_not_mem_predeclaredTypes f.name hpredeclared

theorem setMode_captures_no_type :
    ∃ m, ofInterface modeRegistry "Player" (setMode "type") = .ok m ∧
      ∀ p ∈ (m.stub .default "Player").params,
        p.name ∉ (m.stub .default "Player").body.flatMap Stmt.typeNames := by
  have h : ofInterface modeRegistry "Player" (setMode "type") = .ok (resolvedSetMode "type") := rfl
  have hmode : Resolved.ofType modeRegistry (.result "Player" "setMode") (.named "mode")
      = .ok (.enum "mode") := rfl
  refine ⟨_, h, (params_capture_no_type_iff h .default "Player").2 ?_⟩
  rintro r ⟨⟩ t ht
  rw [ht.unique (.of_ofType hmode)]
  show ∀ f ∈ (setMode "type").params, Identifier.param f.name ≠ "mode"
  decide

/-- A parameter with the name of the enumeration hides it. -/
theorem setMode_captures_mode :
    ∃ m, ofInterface modeRegistry "Player" (setMode "mode") = .ok m ∧
      ∃ p ∈ (m.stub .default "Player").params,
        p.name = "mode" ∧ p.name ∈ (m.stub .default "Player").body.flatMap Stmt.typeNames := by
  have h : ofInterface modeRegistry "Player" (setMode "mode") = .ok (resolvedSetMode "mode") := rfl
  have hmode : (Resolved.enum "mode").goName ≠ "len" := by decide
  have hmention := goName_mem_typeNames_stubBody (m := resolvedSetMode "mode") rfl hmode .default
  exact ⟨_, h, _, List.mem_cons_self, rfl, hmention⟩

end Method

end Binding

end GoBindings
