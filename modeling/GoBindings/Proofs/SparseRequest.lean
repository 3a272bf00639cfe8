import GoBindings.Binding.Stub
import GoBindings.Proofs.Evaluation
import GoBindings.Proofs.Identifiers
import GoBindings.Proofs.Outcome

set_option autoImplicit false

/-! # What a method sends

A method sends the arguments that are present, each under the name that its parameter has in the
description. Three functions say how a parameter is treated: one gives its Go type, one the
condition under which it is sent, one what is sent. They agree: for every value of the Go type the
condition has a meaning, and it holds exactly if the value is present (`eval_guard`). Running the
body is then an induction over the parameters. It needs every argument by its name; a parameter of
the blank name has an argument that cannot be read, and no meaning is left
(`execAll_send_of_blank`). -/

namespace GoBindings

open Go (Value Scope Runtime Expr Stmt)

/-! ## Values of resolved types -/

/-- The values of a type, given those of the one name in it. -/
def Go.Ty.Has (named : Value → Prop) : Go.Ty → Value → Prop
  | .named _, v => named v
  | .slice item, .slice items => ∀ v ∈ items.getD [], item.Has named v
  | .pointer target, .pointer v? => ∀ v ∈ v?, target.Has named v
  | .map _ value, .map entries => ∀ e ∈ entries.getD [], value.Has named e.2
  | _, _ => False

namespace Binding

namespace Resolved

/-- The values that the name in the Go type stands for. -/
def NamedValue : Resolved → Value → Prop
  | primitive .text, v | enum _, v => ∃ s, v = .text s
  | primitive .int, v | primitive .int64, v => ∃ n, v = .int n
  | primitive .float, v => ∃ x, v = .float x
  | primitive .boolean, v => ∃ b, v = .bool b
  | value _, v => ∃ fields, v = .struct fields
  | remote _, v => ∃ held, v = .interface held
  | collection item, v => item.NamedValue v
  | optional inner, v => inner.NamedValue v

/-- A value of the Go type. -/
def Accepts (style : OptionalStyle) (t : Resolved) (v : Value) : Prop :=
  (t.goType style).Has t.NamedValue v

/-- An argument that says nothing: nil for a pointer or a remote object, a collection of no items,
    or the zero value of any other type. -/
def isAbsent (style : OptionalStyle) (t : Resolved) (v : Value) : Bool :=
  if t.isPointerOptional style then v.isNil
  else match t.required with
    | remote _ => v.isNil
    | collection _ => v.length? == some 0
    | _ => v.isZero

theorem required_ne_optional (t inner : Resolved) : t.required ≠ optional inner := by
  induction t with
  | optional t ih => exact ih
  | _ => exact Resolved.noConfusion

theorem namedValue_required (t : Resolved) : t.required.NamedValue = t.NamedValue := by
  induction t with
  | optional inner ih => exact ih
  | _ => rfl

theorem isPointer_goType {style : OptionalStyle} {t : Resolved}
    (h : t.isPointerOptional style = true) : ∃ target, t.goType style = .pointer target := by
  cases t with
  | optional inner =>
    unfold goType
    cases hinner : inner.goType style with
    | pointer target => exact ⟨target, by simp [Go.Ty.isPointer]⟩
    | named name => exact ⟨.named name, by simp [h, Go.Ty.isPointer]⟩
    | slice item => exact ⟨.slice item, by simp [h, Go.Ty.isPointer]⟩
    | map key value => exact ⟨.map key value, by simp [h, Go.Ty.isPointer]⟩
  | _ => exact absurd h Bool.false_ne_true

/-- Optional markers that no pointer tells leave no trace in the Go type. -/
theorem goType_required {style : OptionalStyle} {t : Resolved}
    (h : t.isPointerOptional style = false) : t.goType style = t.required.goType style := by
  induction t with
  | optional inner ih =>
    have hinner : inner.isPointerOptional style = false := by
      cases inner with
      | optional _ => exact h
      | _ => rfl
    rw [goType, h, Bool.false_and, if_neg Bool.false_ne_true]
    exact ih hinner
  | _ => rfl

end Resolved

/-! ## One argument -/

namespace Param

theorem names_of_ofField {registry : Registry} {owner method : String} {f : Interface.Field}
    {p : Param} (h : ofField registry owner method f = .ok p) :
    p.wireName = f.name ∧ p.goName = Identifier.param p.wireName := by
  obtain ⟨type, -, hp⟩ := Outcome.bind_eq_ok_iff.1 h
  simp [← Except.ok.inj hp]

/-- What is sent for an argument. -/
def wireForm (rt : Runtime) (p : Param) (v : Value) : Value :=
  if p.type.required.isRemote then .text (rt.textOf v) else v

variable (rt : Runtime) {vars : Scope} {p : Param} {v : Value}

/-- **The condition has a value for every argument of the Go type**, and is true exactly if the
    argument is present. -/
theorem eval_guard {style : OptionalStyle} (hv : Go.lookupName vars p.goName = some v)
    (hlen : Go.isFree vars "len" = true) (hreflect : Go.isFree vars "reflect" = true)
    (h : p.type.Accepts style v) :
    (p.guard style).eval rt vars = some (.bool !p.type.isAbsent style v) := by
  have hident : p.ident.eval rt vars = some v := hv
  have hcompare := Expr.eval_compare hident
  unfold guard Resolved.isAbsent
  unfold Resolved.Accepts at h
  cases hpointer : p.type.isPointerOptional style with
  | true =>
    obtain ⟨target, htarget⟩ := Resolved.isPointer_goType hpointer
    rw [htarget] at h
    cases v with
    | pointer v? =>
      simp only [if_true, Expr.nil, hcompare, Value.compare?, Value.isNil]
      cases v? <;> rfl
    | _ => exact h.elim
  | false =>
    rw [Resolved.goType_required hpointer, ← Resolved.namedValue_required] at h
    simp only [Bool.false_eq_true, if_false]
    cases hrequired : p.type.required with
    | primitive kind =>
      rw [hrequired] at h
      cases kind with
      | text =>
        obtain ⟨s, rfl⟩ := h
        exact hcompare .notEqual (.string "")
      | int =>
        obtain ⟨n, rfl⟩ := h
        exact hcompare .notEqual (.int 0)
      | int64 =>
        obtain ⟨n, rfl⟩ := h
        exact hcompare .notEqual (.int 0)
      | float =>
        obtain ⟨x, rfl⟩ := h
        exact hcompare .notEqual (.int 0)
      | boolean =>
        obtain ⟨b, rfl⟩ := h
        simp [hident, Value.isZero]
    | enum name =>
      rw [hrequired] at h
      obtain ⟨s, rfl⟩ := h
      exact hcompare .notEqual (.string "")
    | value name => exact Expr.eval_not (Expr.eval_isZero hident hreflect)
    | remote name =>
      rw [hrequired] at h
      obtain ⟨held, rfl⟩ := h
      simp only [Expr.nil, hcompare, Value.compare?, Value.isNil]
      cases held <;> rfl
    | collection item =>
      rw [hrequired] at h
      cases v with
      | slice items =>
        rw [Expr.zero, Expr.eval_compare (Expr.eval_len hident hlen)]
        cases hitems : items.getD [] with
        | nil => simp [hitems, Value.compare?, Value.length?]
        | cons item rest => simp [hitems, Value.compare?, Value.length?]
      | _ => exact h.elim
    | optional inner => exact absurd hrequired (p.type.required_ne_optional inner)

/-- Every condition asks for the argument, which the blank name does not give. -/
theorem eval_guard_of_blank (h : p.goName = "_") (style : OptionalStyle) (vars : Scope) :
    (p.guard style).eval rt vars = none := by
  have hident : p.ident.eval rt vars = none := by
    rw [ident, h]
    rfl
  have hcompare : ∀ op l, (Expr.compare p.ident op (.literal l)).eval rt vars = none := by
    intro op l
    simp only [Expr.eval, hident]
  unfold guard
  split
  · exact hcompare _ _
  · split
    case h_6 => exact hident
    case h_7 => simp [Expr.eval, Expr.evalAll, Expr.free?, hident]
    case h_8 => simp [Expr.eval, Expr.evalAll, Expr.zero, hident]
    all_goals exact hcompare _ _

theorem eval_wireValue (hv : Go.lookupName vars p.goName = some v)
    (hfmt : Go.isFree vars "fmt" = true) :
    p.wireValue.eval rt vars = some (p.wireForm rt v) := by
  have hident : p.ident.eval rt vars = some v := hv
  unfold wireValue wireForm
  by_cases hremote : p.type.required.isRemote = true
  · simp [hremote, textForm, Expr.eval_sprintf hident hfmt]
  · simp [hremote, hident]

/-- The arguments that are sent, with one more parameter. -/
def collect (style : OptionalStyle) (sent : List (String × Value))
    (arg : Param × Value) : List (String × Value) :=
  if arg.1.type.isAbsent style arg.2 then sent
  else Go.setEntry sent arg.1.wireName (arg.1.wireForm rt arg.2)

/-- The variables of a body from which its arguments are sent. -/
structure Ready (style : OptionalStyle) (vars : Scope) (arg : Param × Value) : Prop where
  value : Go.lookupName vars arg.1.goName = some arg.2
  apart : arg.1.goName ≠ "params"
  accepted : arg.1.type.Accepts style arg.2

/-- The names that the body needs for builtins, packages and types. -/
structure Unshadowed (vars : Scope) : Prop where
  len : Go.isFree vars "len" = true
  fmt : Go.isFree vars "fmt" = true
  reflect : Go.isFree vars "reflect" = true
  payload : Go.Ty.payload.isFree vars = true

/-- **One parameter.** Its argument is put into the map if it is present; nothing else changes. -/
theorem exec_send {style : OptionalStyle} {sent : List (String × Value)} {arg : Param × Value}
    (hfree : Unshadowed vars) (hready : Ready style vars arg) (go : Scope → Go.Behavior) :
    (arg.1.send style).exec rt (("params", .map (some sent)) :: vars) go
      = go (("params", .map (some (collect rt style sent arg))) :: vars) := by
  obtain ⟨p, v⟩ := arg
  obtain ⟨hvalue, hapart, haccepted⟩ := hready
  -- the map of arguments comes first, and takes no name from the others
  have hskip : ∀ name, name ≠ "params" →
      Go.isFree (("params", Value.map (some sent)) :: vars) name = Go.isFree vars name :=
    fun name hne => Go.isFree_cons_of_ne hne
  have hv : Go.lookupName (("params", Value.map (some sent)) :: vars) p.goName = some v := by
    rw [Go.lookupName_cons_of_ne hapart, hvalue]
  have hguard := eval_guard rt hv (by rw [hskip _ (by decide), hfree.len])
    (by rw [hskip _ (by decide), hfree.reflect]) haccepted
  have hwire := eval_wireValue rt hv (by rw [hskip _ (by decide), hfree.fmt])
  simp only [send, Stmt.exec, hguard, collect]
  cases p.type.isAbsent style v with
  | true => rfl
  | false =>
    simp [Stmt.execAll, Stmt.exec, Expr.eval, Expr.string, Go.Literal.value?, hwire, Scope.set,
      Scope.leave, Go.lookupName]

/-! ## All arguments -/

theorem execAll_send {style : OptionalStyle} {args : List (Param × Value)} (hfree : Unshadowed vars)
    (hready : ∀ arg ∈ args, Ready style vars arg) (sent : List (String × Value))
    (go : Scope → Go.Behavior) (rest : List Stmt) :
    Stmt.execAll rt (("params", .map (some sent)) :: vars) go
        (args.map (fun arg => arg.1.send style) ++ rest)
      = Stmt.execAll rt (("params", .map (some (args.foldl (collect rt style) sent))) :: vars) go
        rest := by
  induction args generalizing sent with
  | nil => rfl
  | cons arg args ih =>
    obtain ⟨hfirst, hrest⟩ := List.forall_mem_cons.1 hready
    rw [List.map_cons, List.cons_append, Stmt.execAll, exec_send rt hfree hfirst, ih hrest]
    rfl

/-- The body runs up to the first parameter of the blank name, and no further. -/
theorem execAll_send_of_blank {style : OptionalStyle} {args : List (Param × Value)}
    (hfree : Unshadowed vars) (hready : ∀ arg ∈ args, arg.1.goName ≠ "_" → Ready style vars arg)
    (hblank : ∃ arg ∈ args, arg.1.goName = "_") (sent : List (String × Value))
    (go : Scope → Go.Behavior) (rest : List Stmt) :
    Stmt.execAll rt (("params", .map (some sent)) :: vars) go
      (args.map (fun arg => arg.1.send style) ++ rest) = .stuck := by
  induction args generalizing sent with
  | nil => simp at hblank
  | cons arg args ih =>
    obtain ⟨hfirst, hrest⟩ := List.forall_mem_cons.1 hready
    rw [List.map_cons, List.cons_append, Stmt.execAll]
    by_cases hname : arg.1.goName = "_"
    · simp only [send, Stmt.exec, eval_guard_of_blank rt hname]
    · rw [exec_send rt hfree (hfirst hname)]
      exact ih hrest (((List.exists_mem_cons_iff _ _ _).1 hblank).resolve_left hname) _

/-- Parameters with different names do not disturb each other in the map. -/
theorem lookup_foldl_collect {style : OptionalStyle} {args : List (Param × Value)}
    (hnames : (args.map fun arg => arg.1.wireName).Nodup) (sent : List (String × Value))
    (key : String) (w : Value) :
    (args.foldl (collect rt style) sent).lookup key = some w ↔
      (∃ arg ∈ args, arg.1.wireName = key ∧ arg.1.type.isAbsent style arg.2 = false ∧
        w = arg.1.wireForm rt arg.2) ∨
      (sent.lookup key = some w ∧
        ∀ arg ∈ args, arg.1.type.isAbsent style arg.2 = false → arg.1.wireName ≠ key) := by
  induction args generalizing sent with
  | nil => simp
  | cons arg args ih =>
    rw [List.map_cons, List.nodup_cons] at hnames
    have hother : ∀ a ∈ args, a.1.wireName ≠ arg.1.wireName := by
      intro a ha heq
      exact hnames.1 (heq ▸ List.mem_map.2 ⟨a, ha, rfl⟩)
    rw [List.foldl_cons, ih hnames.2, List.exists_mem_cons_iff, List.forall_mem_cons, collect]
    cases habsent : arg.1.type.isAbsent style arg.2 with
    | true => simp
    | false =>
      simp only [Bool.false_eq_true, if_false, Go.lookup_setEntry, true_and, forall_const]
      by_cases hkey : key = arg.1.wireName
      · subst hkey
        rw [if_pos rfl]
        constructor
        · rintro (hlater | ⟨hw, -⟩)
          · exact Or.inl (Or.inr hlater)
          · exact Or.inl (Or.inl ⟨rfl, (Option.some.inj hw).symm⟩)
        · rintro ((⟨-, rfl⟩ | hlater) | ⟨-, hne, -⟩)
          · exact Or.inr ⟨rfl, fun a ha _ => hother a ha⟩
          · exact Or.inl hlater
          · exact absurd rfl hne
      · simp [hkey, Ne.symm hkey]

end Param

/-! ## The request -/

namespace Method

/-- The variables with which the body of a method starts. -/
def scope (m : Method) (receiver : Value) (args : List Value) : Scope :=
  ("elem", receiver) :: (m.params.map Param.goName).zip args

/-- The variables when the request is there, before anything is put into it. -/
def requestScope (rt : Runtime) (m : Method) (receiver : Value) (args : List Value) : Scope :=
  ("req", .map (some (rt.invokeRequest receiver))) :: m.scope receiver args

section

variable {m : Method} {args : List Value} (rt : Runtime)
  (hlength : m.params.length = args.length)
  (hgo : ∀ p ∈ m.params, p.goName = Identifier.param p.wireName) (receiver : Value)

include hlength hgo

/-- No parameter takes a name that the body needs. -/
theorem isFree_requestScope {name : String} (hreq : name ≠ "req") (helem : name ≠ "elem")
    (h : name ∈ Identifier.reservedLocals ∨ Identifier.isValid name = false) :
    Go.isFree (m.requestScope rt receiver args) name = true := by
  have hname : name ≠ "_" := by
    rintro rfl
    exact absurd h (by decide)
  rw [requestScope, scope, Go.isFree_cons_of_ne hreq, Go.isFree_cons_of_ne helem,
    Go.isFree_eq_true_iff, List.map_fst_zip (by simp [hlength])]
  refine ⟨hname, fun hmem => ?_⟩
  obtain ⟨p, hp, rfl⟩ := List.mem_map.1 hmem
  rw [hgo p hp, Identifier.isValid_param] at h
  rcases h with hreserved | hinvalid
  · exact Identifier.param_not_mem_reservedLocals p.wireName hreserved
  · exact Bool.noConfusion hinvalid

theorem unshadowed : Param.Unshadowed (m.requestScope rt receiver args) where
  len := isFree_requestScope rt hlength hgo receiver (by decide) (by decide) (by decide)
  fmt := isFree_requestScope rt hlength hgo receiver (by decide) (by decide) (by decide)
  reflect := isFree_requestScope rt hlength hgo receiver (by decide) (by decide) (by decide)
  payload := by
    refine List.all_eq_true.2 fun name hname => ?_
    have hcases : name = "string" ∨ name = "interface{}" := List.mem_pair.1 hname
    rcases hcases with rfl | rfl
    · exact isFree_requestScope rt hlength hgo receiver (by decide) (by decide) (by decide)
    · exact isFree_requestScope rt hlength hgo receiver (by decide) (by decide) (by decide)

/-- Every parameter has its argument, and gives it unless its name is blank. -/
theorem ready {style : OptionalStyle} (hnames : (m.params.map Param.goName).Nodup)
    {arg : Param × Value} (h : arg ∈ m.params.zip args)
    (haccepts : arg.1.type.Accepts style arg.2) (hname : arg.1.goName ≠ "_") :
    Param.Ready style (m.requestScope rt receiver args) arg := by
  have hapart : ∀ name ∈ Identifier.reservedLocals, arg.1.goName ≠ name := by
    rintro name hmem heq
    rw [hgo arg.1 (List.of_mem_zip h).1] at heq
    exact Identifier.param_not_mem_reservedLocals arg.1.wireName (heq ▸ hmem)
  refine ⟨?_, hapart _ (by decide), haccepts⟩
  rw [requestScope, scope, Go.lookupName_of_ne hname,
    Scope.lookup_cons_of_ne (hapart _ (by decide)), Scope.lookup_cons_of_ne (hapart _ (by decide)),
    lookup_eq_some_iff_mem (by rwa [List.map_fst_zip (by simp [hlength])]), List.zip_map_left]
  exact List.mem_map.2 ⟨arg, h, rfl⟩

end

/-- What the server is told, given the arguments that are sent. -/
def callEntries (m : Method) (id : Value) (sent : List (String × Value)) : List (String × Value) :=
  [("operation", .text m.wireName), ("object", id)] ++
    if m.params.isEmpty then [] else [("operationParams", .map (some sent))]

section

variable {rt : Runtime} {m : Method} {vars : Scope} {receiver id : Value}

theorem lookup_callEntries {sent : List (String × Value)} {key : String} {v : Value} :
    (m.callEntries id sent).lookup key = some v ↔
      (key = "operation" ∧ v = .text m.wireName) ∨ (key = "object" ∧ v = id) ∨
      (key = "operationParams" ∧ m.params ≠ [] ∧ v = .map (some sent)) := by
  unfold callEntries
  by_cases hparams : m.params = []
  · rw [lookup_eq_some_iff_mem (by simp [hparams])]
    simp [hparams]
  · rw [lookup_eq_some_iff_mem (by simp [hparams])]
    simp [hparams]

theorem evalEntries_payload {sent : List (String × Value)}
    (helem : Go.lookupName vars "elem" = some receiver) (hid : receiver.field? "Id" = some id)
    (hsent : m.params ≠ [] → Go.lookupName vars "params" = some (.map (some sent))) :
    Expr.evalEntries rt vars m.payload = some (m.callEntries id sent) := by
  unfold payload callEntries
  cases hparams : m.params with
  | nil => simp [Expr.evalEntries, Expr.eval, Expr.string, Go.Literal.value?, helem, hid]
  | cons p ps =>
    have hlookup := hsent (by simp [hparams])
    simp [Expr.evalEntries, Expr.eval, Expr.string, Go.Literal.value?, helem, hid, hlookup]

/-- The end of the body up to the request, when the arguments are collected. -/
theorem execAll_ask {made call : List (String × Value)}
    (hreq : Go.lookupName vars "req" = some (.map (some made)))
    (hpayload : Go.Ty.payload.isFree vars = true)
    (hcall : Expr.evalEntries rt vars m.payload = some call) (go : Scope → Go.Behavior)
    (rest : List Stmt) :
    ∃ next, Stmt.execAll rt vars go
        (.assign (.index (.ident "req") (.string "params")) (.mapOf .payload m.payload) ::
          .comment "call server and wait for the response" ::
          .define ["response"]
            (.receive (.call (.select (.select (.ident "elem") "connection") "Request")
              [.ident "req"])) :: rest)
      = .asks (.map (some (Go.setEntry made "params" (.map (some call))))) next := by
  have hset : ∀ v, Go.lookupName (Scope.set vars "req" v) "req" = some v := fun v =>
    Scope.lookupName_set_self hreq
  simp only [Stmt.execAll, Stmt.exec, Expr.eval, Expr.string, Go.Literal.value?, Expr.request?,
    hreq, hpayload, hcall, if_true, Option.map_some, hset]
  exact ⟨_, rfl⟩

/-- The arguments that a method sends. -/
def sentArgs (rt : Runtime) (style : OptionalStyle) (m : Method) (args : List Value) :
    List (String × Value) :=
  (m.params.zip args).foldl (Param.collect rt style) []

/-- The body begins with an empty map beside the request, and then treats one argument after the
    other. -/
theorem execAll_collectArgs (rt : Runtime) {args : List Value} (hparams : m.params ≠ [])
    (hlength : m.params.length = args.length) (hpayload : Go.Ty.payload.isFree vars = true)
    (style : OptionalStyle) (go : Scope → Go.Behavior) (rest : List Stmt) :
    Stmt.execAll rt vars go (m.collectArgs style ++ rest)
      = Stmt.execAll rt (("params", .map (some [])) :: vars) go
          ((m.params.zip args).map (fun arg => arg.1.send style) ++ rest) := by
  have hzip : (m.params.zip args).map Prod.fst = m.params :=
    List.map_fst_zip (Nat.le_of_eq hlength)
  have hsends : m.params.map (fun p => p.send style)
      = (m.params.zip args).map fun arg => arg.1.send style := by
    conv_lhs => rw [← hzip, List.map_map]
    rfl
  rw [collectArgs, if_neg (by simpa using hparams), hsends, List.cons_append]
  exact Stmt.execAll_define rfl (Expr.eval_mapOf hpayload rfl)

section Body

variable (rt : Runtime) (code : CodeSettings) {args : List Value}
  (hlength : m.params.length = args.length)
  (hgo : ∀ p ∈ m.params, p.goName = Identifier.param p.wireName)
  (hnames : (m.params.map Param.goName).Nodup)
  (haccepts : ∀ arg ∈ m.params.zip args, arg.1.type.Accepts code.optionalStyle arg.2)

/-- A body makes its request ready first. -/
theorem run_stubBody_eq (receiver : Value) (args : List Value) :
    Go.run rt (m.scope receiver args) (m.stubBody code)
      = Stmt.execAll rt (m.requestScope rt receiver args) (fun _ => .returns [])
          (m.collectArgs code.optionalStyle ++
            (.assign (.index (.ident "req") (.string "params")) (.mapOf .payload m.payload) ::
              .comment "call server and wait for the response" ::
              .define ["response"]
                (.receive (.call (.select (.select (.ident "elem") "connection") "Request")
                  [.ident "req"])) :: returnStmts code m.result)) := by
  rw [stubBody, List.append_assoc, List.append_assoc, List.singleton_append]
  simp [Go.run, Stmt.execAll, Stmt.exec, Expr.request?, Expr.eval, Expr.free?, Expr.evalAll,
    Runtime.methodCall, requestScope, scope, Go.isFree, Go.lookupName]

include hlength hgo hnames haccepts

/-- **A body runs up to its request**, which is the one its object makes ready with the call put
    into it. -/
theorem run_stubBody (hid : receiver.field? "Id" = some id)
    (hnamed : ∀ p ∈ m.params, p.goName ≠ "_") :
    ∃ next, Go.run rt (m.scope receiver args) (m.stubBody code)
      = .asks (.map (some (Go.setEntry (rt.invokeRequest receiver) "params"
          (.map (some (m.callEntries id (m.sentArgs rt code.optionalStyle args))))))) next := by
  have helem : Go.lookupName (m.requestScope rt receiver args) "elem" = some receiver := by
    simp [requestScope, scope, Go.lookupName, List.lookup_cons]
  have hreq : Go.lookupName (m.requestScope rt receiver args) "req"
      = some (.map (some (rt.invokeRequest receiver))) :=
    Go.lookupName_cons_self (by decide)
  have hfree := unshadowed rt hlength hgo receiver
  rw [run_stubBody_eq]
  by_cases hparams : m.params = []
  · have hnone : m.collectArgs code.optionalStyle = [] := by simp [collectArgs, hparams]
    rw [hnone, List.nil_append]
    exact execAll_ask hreq hfree.payload (evalEntries_payload helem hid (absurd hparams)) _ _
  · have hready : ∀ arg ∈ m.params.zip args,
        Param.Ready code.optionalStyle (m.requestScope rt receiver args) arg := fun arg harg =>
      ready rt hlength hgo receiver hnames harg (haccepts arg harg)
        (hnamed arg.1 (List.of_mem_zip harg).1)
    rw [execAll_collectArgs rt hparams hlength hfree.payload, Param.execAll_send rt hfree hready]
    refine execAll_ask ?_ ?_ (evalEntries_payload ?_ hid fun _ => ?_) _ _
    · rw [Go.lookupName_cons_of_ne (by decide), hreq]
    · exact Go.Ty.isFree_cons (by decide) hfree.payload
    · rw [Go.lookupName_cons_of_ne (by decide), helem]
    · exact Go.lookupName_cons_self (by decide)

/-- With a parameter of the blank name a body has no meaning. -/
theorem run_stubBody_of_blank (receiver : Value) (hblank : ∃ p ∈ m.params, p.goName = "_") :
    Go.run rt (m.scope receiver args) (m.stubBody code) = .stuck := by
  obtain ⟨p, hp, hname⟩ := hblank
  have hfree := unshadowed rt hlength hgo receiver
  obtain ⟨v, hv⟩ : ∃ v, (p, v) ∈ m.params.zip args := by
    have hmem : p ∈ (m.params.zip args).map Prod.fst := by
      rwa [List.map_fst_zip (Nat.le_of_eq hlength)]
    obtain ⟨arg, harg, rfl⟩ := List.mem_map.1 hmem
    exact ⟨arg.2, harg⟩
  rw [run_stubBody_eq, execAll_collectArgs rt (List.ne_nil_of_mem hp) hlength hfree.payload]
  refine Param.execAll_send_of_blank rt hfree (fun arg harg hnamed => ?_) ⟨_, hv, hname⟩ [] _ _
  exact ready rt hlength hgo receiver hnames harg (haccepts arg harg) hnamed

end Body

/-- Go names come from wire names, so parameters that differ in one differ in the other. -/
theorem nodup_wireName (hgo : ∀ p ∈ m.params, p.goName = Identifier.param p.wireName)
    (hnames : (m.params.map Param.goName).Nodup) : (m.params.map Param.wireName).Nodup := by
  have hmap : m.params.map Param.goName = (m.params.map Param.wireName).map Identifier.param := by
    rw [List.map_map]
    exact List.map_congr_left hgo
  exact List.Nodup.of_map _ (hmap ▸ hnames)

theorem nodup_wireNames {args : List Value} (hlength : m.params.length = args.length)
    (hgo : ∀ p ∈ m.params, p.goName = Identifier.param p.wireName)
    (hnames : (m.params.map Param.goName).Nodup) :
    ((m.params.zip args).map fun arg => arg.1.wireName).Nodup := by
  have hzip : (m.params.zip args).map (fun arg => arg.1.wireName)
      = m.params.map Param.wireName := by
    conv_rhs => rw [← List.map_fst_zip (Nat.le_of_eq hlength), List.map_map]
    rfl
  rw [hzip]
  exact nodup_wireName hgo hnames

end

/-- **A method sends exactly the arguments that are present**, under their declared names, unless a
    parameter has the blank name. The request holds the operation and the object too, and has
    arguments if and only if parameters are declared. An argument of the blank name cannot be read,
    and the body has no meaning then. -/
theorem sends_present_arguments (rt : Runtime) (code : CodeSettings) (registry : Registry)
    (owner : String) (declared : Interface.Method) (m : Method) (receiver id : Value)
    (args : List Value) (hname : m.wireName = declared.name)
    (hresolved : List.Forall₂ (fun f p => Param.ofField registry owner declared.name f = .ok p)
      declared.params m.params)
    (hnames : (m.params.map Param.goName).Nodup)
    (hargs : List.Forall₂ (fun p v => p.type.Accepts code.optionalStyle v) m.params args)
    (hid : receiver.field? "Id" = some id) :
    m.params.map Param.wireName = declared.params.map Interface.Field.name ∧
    ((∃ request call sent next,
      Go.run rt (m.scope receiver args) (m.stub code owner).body
        = .asks (.map (some request)) next ∧
      request.lookup "params" = some (.map (some call)) ∧
      (∀ key v, call.lookup key = some v ↔
        (key = "operation" ∧ v = .text declared.name) ∨ (key = "object" ∧ v = id) ∨
        (key = "operationParams" ∧ declared.params ≠ [] ∧ v = .map (some sent))) ∧
      ∀ key v, sent.lookup key = some v ↔
        ∃ arg ∈ m.params.zip args, arg.1.wireName = key ∧
          arg.1.type.isAbsent code.optionalStyle arg.2 = false ∧ v = arg.1.wireForm rt arg.2) ↔
      ∀ p ∈ m.params, p.goName ≠ "_") ∧
    ((∃ p ∈ m.params, p.goName = "_") →
      Go.run rt (m.scope receiver args) (m.stub code owner).body = .stuck) := by
  have hlength : m.params.length = args.length := hargs.length_eq
  have hdeclared : m.params.map Param.wireName = declared.params.map Interface.Field.name := by
    rw [← List.forall₂_eq_eq_eq, List.forall₂_map_left_iff, List.forall₂_map_right_iff]
    exact hresolved.flip.imp fun p f h => (Param.names_of_ofField h).1
  have hgo : ∀ p ∈ m.params, p.goName = Identifier.param p.wireName := by
    intro p hp
    obtain ⟨f, -, hf⟩ := Outcome.exists_of_mem_right hresolved hp
    exact (Param.names_of_ofField hf).2
  have hwire := nodup_wireNames hlength hgo hnames
  have haccepts : ∀ arg ∈ m.params.zip args, arg.1.type.Accepts code.optionalStyle arg.2 := by
    intro arg harg
    exact List.forall₂_zip hargs harg
  have hempty : m.params = [] ↔ declared.params = [] := by
    rw [← List.map_eq_nil_iff, hdeclared, List.map_eq_nil_iff]
  have hstuck := run_stubBody_of_blank rt code hlength hgo hnames haccepts receiver
  refine ⟨hdeclared, ⟨?_, ?_⟩, hstuck⟩
  · rintro ⟨request, call, sent, next, hrun, -⟩ p hp hblank
    cases hrun.symm.trans (hstuck ⟨p, hp, hblank⟩)
  · intro hnamed
    obtain ⟨next, hrun⟩ := run_stubBody rt code hlength hgo hnames haccepts hid hnamed
    refine ⟨_, m.callEntries id (m.sentArgs rt code.optionalStyle args),
      m.sentArgs rt code.optionalStyle args, next, hrun, ?_, ?_, ?_⟩
    · rw [Go.lookup_setEntry, if_pos rfl]
    · intro key v
      rw [lookup_callEntries, hname, Ne, hempty]
    · intro key v
      rw [sentArgs, Param.lookup_foldl_collect rt hwire]
      simp

/-- A method with a parameter of each sort: a remote object, an optional number whose name is taken
    in Go, and a list. -/
def connectDeclared : Interface.Method where
  name := "connect"
  doc := []
  params := [
    ⟨"sink", .named "Element", none, []⟩,
    ⟨"len", .optional (.primitive .int), none, []⟩,
    ⟨"tags", .collection (.primitive .text), none, []⟩]
  result := none

def connectMethod : Method where
  goName := "Connect"
  wireName := "connect"
  doc := []
  params := [
    ⟨"sink", "sink", .remote "Element"⟩,
    ⟨"_len", "len", .optional (.primitive .int)⟩,
    ⟨"tags", "tags", .collection (.primitive .text)⟩]
  result := none

/-- A number is sent even if it is zero when a pointer tells that it is there; no empty list is. -/
theorem connect_sends_sink_without_tags :
    ∃ request call sent next,
      Go.run ⟨fun _ => "sink-1", fun _ => []⟩
          (connectMethod.scope (.pointer (some (.struct [("Id", .text "player-1")])))
            [.interface (some (.text "Element")), .pointer (some (.int 0)), .slice (some [])])
          (connectMethod.stub { CodeSettings.default with optionalStyle := .pointer }
            "Element").body
        = .asks (.map (some request)) next ∧
      request.lookup "params" = some (.map (some call)) ∧
      call.lookup "operationParams" = some (.map (some sent)) ∧
      sent.lookup "sink" = some (.text "sink-1") ∧
      sent.lookup "len" = some (.pointer (some (.int 0))) ∧ sent.lookup "tags" = none := by
  obtain ⟨-, hsends, -⟩ :=
    sends_present_arguments ⟨fun _ => "sink-1", fun _ => []⟩
      { CodeSettings.default with optionalStyle := .pointer }
      ⟨[("Element", ⟨.remote, ⟨"element.kmd.json"⟩, 0, none⟩)]⟩ "Element" connectDeclared
      connectMethod (.pointer (some (.struct [("Id", .text "player-1")]))) (.text "player-1")
      [.interface (some (.text "Element")), .pointer (some (.int 0)), .slice (some [])]
      rfl (.cons rfl (.cons rfl (.cons rfl .nil))) (by decide)
      (.cons ⟨_, rfl⟩ (.cons (by rintro v ⟨⟩; exact ⟨0, rfl⟩) (.cons (by rintro v ⟨⟩) .nil))) rfl
  obtain ⟨request, call, sent, next, hrun, hcall, hentries, hsent⟩ := hsends.2 (by decide)
  refine ⟨request, call, sent, next, hrun, hcall, ?_, ?_, ?_, ?_⟩
  · exact (hentries _ _).2 (Or.inr (Or.inr ⟨rfl, List.cons_ne_nil _ _, rfl⟩))
  · exact (hsent _ _).2 ⟨_, .head _, rfl, rfl, rfl⟩
  · exact (hsent _ _).2 ⟨_, .tail _ (.head _), rfl, rfl, rfl⟩
  · rw [Option.eq_none_iff_forall_ne_some]
    intro v hv
    obtain ⟨arg, harg, hkey, hpresent, -⟩ := (hsent _ _).1 hv
    simp only [connectMethod, List.zip_cons_cons, List.zip_nil_left, List.mem_cons,
      List.not_mem_nil, or_false] at harg
    rcases harg with rfl | rfl | rfl
    · exact absurd hkey (by decide)
    · exact absurd hkey (by decide)
    · exact Bool.noConfusion hpresent

/-- A method with a parameter that has no name. -/
def seekMethod : Method where
  goName := "Seek"
  wireName := "seek"
  doc := []
  params := [⟨"_", "", .primitive .int⟩]
  result := none

/-- Nothing is sent, whether the argument is zero or not. -/
theorem seek_has_no_meaning :
    Param.ofField Registry.empty "Player" "seek" ⟨"", .primitive .int, none, []⟩
        = .ok ⟨"_", "", .primitive .int⟩ ∧
      ∀ rt code receiver n,
        Go.run rt (seekMethod.scope receiver [.int n]) (seekMethod.stub code "Player").body
          = .stuck := by
  refine ⟨rfl, fun rt code receiver n => run_stubBody_of_blank rt code rfl ?_ ?_ ?_ receiver ?_⟩
  · decide
  · decide
  · intro arg harg
    obtain rfl := List.mem_singleton.1 harg
    exact ⟨n, rfl⟩
  · exact ⟨_, List.mem_cons_self, rfl⟩

end Method

end Binding

end GoBindings
