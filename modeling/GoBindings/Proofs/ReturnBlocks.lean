import GoBindings.Proofs.SparseRequest

set_option autoImplicit false

/-! # What a method returns

The type of a result, and the statements that return it, are made by functions that do not know of
each other. They agree: every return statement returns values of the declared types, or nil where
the type has a nil (`typed_returnStmts_iff`). Whatever the server answers, the statements run to
their end and hand on its error (`Scalar.run_returnStmts`, `run_returnShape`).

All this holds as long as the types can be named (`CanName`). The statements have variables of their
own, and no name is kept free for them: where a type is called like one of these variables, or like
one of the surroundings, its name stands for the variable. -/

namespace GoBindings

open Go (Value Scope Runtime Expr Stmt Ty)

namespace Go

/-! ## Types of expressions -/

/-- Variables with their types, the innermost first. -/
abbrev Typing := List (String × Ty)

/-- The type of an expression, as far as returned values are made of it. A response has an error,
    and values of any type by their names. -/
def Expr.type? (vars : Typing) : Expr → Option Ty
  | ident name => lookupName vars name
  | select (ident "response") "Error" => some .error
  | select (ident "response") "Result" => some .payload
  | index x _ =>
    match x.type? vars with
    | some (.map _ value) => some value
    | _ => none
  | call (ident type) [x] =>
    if isFree vars type then (x.type? vars).map fun _ => .named type else none
  | emptyOf type => if type.isFree vars then some type else none
  | compare left _ _ => (left.type? vars).map fun _ => .named "bool"
  | addressOf x => (x.type? vars).map .pointer
  | assertType x type =>
    if type.isFree vars ∧ x.type? vars = some (.named "interface{}") then some type else none
  | _ => none

/-- Values for the results of a function, of which the last is an error: as many, and each of the
    type of its result, or nil where that is allowed. -/
inductive FitResults (nilable : Ty → Prop) (vars : Typing) : List Ty → List Expr → Prop
  | error {x : Expr} (h : x.type? vars = some .error ∨ x = .nil) :
      FitResults nilable vars [.error] [x]
  | cons {x : Expr} {type : Ty} {results : List Ty} {values : List Expr}
      (h : x.type? vars = some type ∨ x = .nil ∧ nilable type)
      (hrest : FitResults nilable vars results values) :
      FitResults nilable vars (type :: results) (x :: values)

/-- A block in which all variables have types, and every return statement fits the results. -/
inductive ReturnsTyped (nilable : Ty → Prop) (results : List Ty) : Typing → List Stmt → Prop
  | nil {vars : Typing} : ReturnsTyped nilable results vars []
  | return {vars : Typing} {values : List Expr} {rest : List Stmt}
      (h : FitResults nilable vars results values)
      (hrest : ReturnsTyped nilable results vars rest) :
      ReturnsTyped nilable results vars (.return values :: rest)
  | ifThen {vars : Typing} {condition : Expr} {body rest : List Stmt}
      (h : condition.type? vars = some (.named "bool"))
      (hbody : ReturnsTyped nilable results vars body)
      (hrest : ReturnsTyped nilable results vars rest) :
      ReturnsTyped nilable results vars (.ifThen condition body :: rest)
  | define {vars : Typing} {name : String} {value : Expr} {type : Ty} {rest : List Stmt}
      (h : value.type? vars = some type)
      (hrest : ReturnsTyped nilable results ((name, type) :: vars) rest) :
      ReturnsTyped nilable results vars (.define [name] value :: rest)
  /-- An assertion may also tell whether it holds. -/
  | assert {vars : Typing} {name : String} {x : Expr} {type : Ty} {rest : List Stmt}
      (h : (Expr.assertType x type).type? vars = some type)
      (hrest : ReturnsTyped nilable results ((name, type) :: vars) rest) :
      ReturnsTyped nilable results vars (.define [name, "_"] (.assertType x type) :: rest)
  | declare {vars : Typing} {name : String} {type : Ty} {rest : List Stmt}
      (h : type.isFree vars = true)
      (hrest : ReturnsTyped nilable results ((name, type) :: vars) rest) :
      ReturnsTyped nilable results vars (.declare name type :: rest)

section

variable {nilable : Ty → Prop} {results : List Ty} {vars : Typing} {rest : List Stmt}

theorem fitResults_pair_iff {type : Ty} {x error : Expr} :
    FitResults nilable vars [type, .error] [x, error] ↔
      (x.type? vars = some type ∨ x = .nil ∧ nilable type) ∧
        (error.type? vars = some .error ∨ error = .nil) := by
  constructor
  · rintro (_ | ⟨h, (herror | ⟨-, ⟨⟩⟩)⟩)
    exact ⟨h, herror⟩
  · rintro ⟨h, herror⟩
    exact .cons h (.error herror)

theorem returnsTyped_return_iff {values : List Expr} :
    ReturnsTyped nilable results vars [.return values] ↔
      FitResults nilable vars results values := by
  constructor
  · rintro (_ | ⟨h, -⟩)
    exact h
  · exact fun h => .return h .nil

theorem returnsTyped_ifThen_iff {condition : Expr} {body : List Stmt} :
    ReturnsTyped nilable results vars (.ifThen condition body :: rest) ↔
      condition.type? vars = some (.named "bool") ∧ ReturnsTyped nilable results vars body ∧
        ReturnsTyped nilable results vars rest := by
  constructor
  · rintro (_ | _ | ⟨h, hbody, hrest⟩)
    exact ⟨h, hbody, hrest⟩
  · exact fun ⟨h, hbody, hrest⟩ => .ifThen h hbody hrest

theorem returnsTyped_define_iff {name : String} {value : Expr} :
    ReturnsTyped nilable results vars (.define [name] value :: rest) ↔
      ∃ type, value.type? vars = some type ∧
        ReturnsTyped nilable results ((name, type) :: vars) rest := by
  constructor
  · rintro (_ | _ | _ | ⟨h, hrest⟩)
    exact ⟨_, h, hrest⟩
  · exact fun ⟨_, h, hrest⟩ => .define h hrest

theorem returnsTyped_assert_iff {name : String} {x : Expr} {type : Ty} :
    ReturnsTyped nilable results vars (.define [name, "_"] (.assertType x type) :: rest) ↔
      (Expr.assertType x type).type? vars = some type ∧
        ReturnsTyped nilable results ((name, type) :: vars) rest := by
  constructor
  · rintro (_ | _ | _ | _ | ⟨h, hrest⟩)
    exact ⟨h, hrest⟩
  · exact fun ⟨h, hrest⟩ => .assert h hrest

theorem returnsTyped_declare_iff {name : String} {type : Ty} :
    ReturnsTyped nilable results vars (.declare name type :: rest) ↔
      type.isFree vars = true ∧ ReturnsTyped nilable results ((name, type) :: vars) rest := by
  constructor
  · rintro (_ | _ | _ | _ | _ | ⟨h, hrest⟩)
    exact ⟨h, hrest⟩
  · exact fun ⟨h, hrest⟩ => .declare h hrest

end

end Go

namespace Binding

/-! ## The blocks -/

/-- The scalar in a response. -/
def Scalar.take (s : Scalar) : Stmt :=
  .define ["value", "_"]
    (.assertType (.index (.select (.ident "response") "Result") (.string "value"))
      (.named s.arrivesAs))

/-- Returns early if the response is an error. -/
def failEarly : Stmt :=
  .ifThen (.compare responseError .notEqual .nil) [.return [.nil, responseError]]

/-- All blocks with which a stub ends. -/
inductive ReturnBlock : List Stmt → Prop
  | error : ReturnBlock [.return [responseError]]
  | scalar (s : Scalar) : ReturnBlock [s.take, .return [s.value, responseError]]
  | pointer (s : Scalar) :
      ReturnBlock [s.take, .define ["result"] s.value,
        .return [.addressOf (.ident "result"), responseError]]
  | object (type : Ty) :
      ReturnBlock [.declare "ret" type, .return [.ident "ret", responseError]]
  | shape (type : Ty) :
      ReturnBlock [.define ["ret"] (placeholder type), .return [.ident "ret", responseError]]
  | checkedObject (type : Ty) :
      ReturnBlock [failEarly, .declare "ret" type, .return [.ident "ret", .nil]]
  | checkedShape (type : Ty) :
      ReturnBlock [failEarly, .define ["ret"] (placeholder type), .return [.ident "ret", .nil]]

theorem returnBlock_returnStmts (code : CodeSettings) (result : Option Resolved) :
    ReturnBlock (returnStmts code result) := by
  unfold returnStmts
  split
  · exact .error
  · next t =>
    split
    · next s _ =>
      unfold Scalar.returnStmts
      split
      · exact .pointer s
      · exact .scalar s
    · unfold returnShape
      cases code.returnPolicy <;> cases t.required.isRemote
      · exact .checkedShape _
      · exact .checkedObject _
      · exact .shape _
      · exact .object _

/-! ## The type of a result -/

namespace Resolved

theorem isPointer_goType_required (style : OptionalStyle) (t : Resolved) :
    (t.required.goType style).isPointer = false := by
  cases hrequired : t.required with
  | optional inner => exact absurd hrequired (t.required_ne_optional inner)
  | _ => rfl

/-- All optional markers together make at most one pointer. -/
theorem goType_eq (style : OptionalStyle) (t : Resolved) :
    t.goType style =
      if t.isPointerOptional style then .pointer (t.required.goType style)
      else t.required.goType style := by
  cases hpointer : t.isPointerOptional style with
  | false => exact goType_required hpointer
  | true =>
    induction t with
    | optional inner ih =>
      rw [if_pos rfl, goType, hpointer, Bool.true_and]
      cases hinner : inner.isPointerOptional style with
      | true =>
        rw [ih hinner, if_pos rfl]
        rfl
      | false =>
        -- the innermost marker: no pointer is inside yet
        rw [goType_required hinner, isPointer_goType_required]
        rfl
    | _ => exact absurd hpointer Bool.false_ne_true

theorem returnType_of_value {t : Resolved} {name : String} (h : t.required = .value name)
    (code : CodeSettings) :
    t.returnType code =
      if t.isPointerOptional code.optionalStyle ∨ code.returnPolicy = .absent
      then .pointer (.named name) else .named name := by
  unfold returnType
  rw [goType_eq, h]
  cases t.isPointerOptional code.optionalStyle <;> cases code.returnPolicy <;> simp [goType]

theorem returnType_eq_goType {t : Resolved} (h : ∀ name, t.required ≠ .value name)
    (code : CodeSettings) : t.returnType code = t.goType code.optionalStyle := by
  simp only [returnType]
  split
  · next name _ hvalue _ _ => exact absurd hvalue (h name)
  · rfl

/-- Where Go has a nil anyway, no marker is told by a pointer. -/
theorem isPointerOptional_of_isNillable {t : Resolved} (h : t.isNillable = true)
    (style : OptionalStyle) : t.isPointerOptional style = false := by
  cases t with
  | optional inner =>
    have hinner : inner.isNillable = true := h
    simp [isPointerOptional, hinner]
  | _ => rfl

theorem returnType_of_isNillable {t : Resolved} (h : t.isNillable = true) (code : CodeSettings) :
    t.returnType code = t.required.goType code.optionalStyle := by
  have hvalue : ∀ name, t.required ≠ .value name := by
    intro name hname
    simp [isNillable, hname] at h
  rw [returnType_eq_goType hvalue, goType_required (isPointerOptional_of_isNillable h _)]

end Resolved

/-- The type that a scalar has when it is returned. -/
def Scalar.type (s : Scalar) : Ty := .named (s.convertTo.getD s.arrivesAs)

theorem Resolved.returnType_of_scalar {t : Resolved} {s : Scalar} (h : t.scalar? = some s)
    (code : CodeSettings) :
    t.returnType code = s.type ∨ t.returnType code = .pointer s.type := by
  have hrequired : t.required.goType code.optionalStyle = s.type ∧
      ∀ name, t.required ≠ .value name := by
    unfold scalar? at h
    split at h
    all_goals cases h
    all_goals
      next heq => simp [heq, goType, primitiveName, Scalar.type]
  rw [returnType_eq_goType hrequired.2, goType_eq, hrequired.1]
  cases t.isPointerOptional code.optionalStyle with
  | true => exact Or.inr rfl
  | false => exact Or.inl rfl

/-- A primitive value or one of an enumeration, optional or not. -/
def Resolved.IsScalar (t : Resolved) : Prop :=
  (∃ p, t.required = .primitive p) ∨ ∃ name, t.required = .enum name

theorem Resolved.isScalar_of_scalar? {t : Resolved} {s : Scalar} (h : t.scalar? = some s) :
    t.IsScalar := by
  unfold scalar? at h
  split at h
  all_goals cases h
  all_goals
    next heq => simp [IsScalar, heq]

/-- What is no scalar is a record, a remote object or a collection. -/
theorem Resolved.cases_of_scalar?_eq_none {t : Resolved} (h : t.scalar? = none) :
    (∃ name, t.required = .value name) ∨ (∃ className, t.required = .remote className) ∨
      ∃ item, t.required = .collection item := by
  unfold scalar? at h
  cases hrequired : t.required with
  | primitive p => cases p <;> simp [hrequired] at h
  | enum name => simp [hrequired] at h
  | value name => exact Or.inl ⟨name, rfl⟩
  | remote className => exact Or.inr (Or.inl ⟨className, rfl⟩)
  | collection item => exact Or.inr (Or.inr ⟨item, rfl⟩)
  | optional inner => exact absurd hrequired (t.required_ne_optional inner)

/-! ## Types that can be named -/

/-- The names of types in the block that returns a result: those of its type, and that of the type
    with which a scalar arrives. -/
def Resolved.namedTypes (code : CodeSettings) (t : Resolved) : List String :=
  (t.returnType code).names ++ (t.scalar?.map Scalar.arrivesAs).toList

/-- The block can name its types among variables with these names. A scalar is in a variable `value`
    when it is converted. -/
def Resolved.CanName (code : CodeSettings) (vars : List String) (t : Resolved) : Prop :=
  ∀ name ∈ t.namedTypes code, name ≠ "_" ∧ name ∉ vars ∧ (t.IsScalar → name ≠ "value")

/-- A scalar arrives with a type that can be named, and so can the type to which it is converted
    when it is in its variable. -/
def Scalar.CanName {α : Type} (s : Scalar) (vars : List (String × α)) : Prop :=
  Go.isFree vars s.arrivesAs = true ∧
    ∀ target ∈ s.convertTo, target ≠ "value" ∧ Go.isFree vars target = true

theorem Resolved.canName_iff_of_scalar {α : Type} {t : Resolved} {s : Scalar}
    (h : t.scalar? = some s) (code : CodeSettings) (vars : List (String × α)) :
    t.CanName code (vars.map Prod.fst) ↔ s.CanName vars := by
  have hscalar := isScalar_of_scalar? h
  have harrives : s.arrivesAs ≠ "value" := by
    unfold scalar? at h
    split at h
    all_goals cases h
    all_goals exact ne_of_beq_false rfl
  have hnames : t.namedTypes code = [s.convertTo.getD s.arrivesAs, s.arrivesAs] := by
    rw [namedTypes, h]
    rcases returnType_of_scalar h code with htype | htype <;> rw [htype] <;> rfl
  unfold CanName Scalar.CanName
  rw [hnames]
  cases s.convertTo with
  | none => simp [Go.isFree_eq_true_iff, harrives]
  | some target =>
    simp only [Option.getD_some, List.mem_pair, forall_eq_or_imp, forall_eq, Go.isFree_eq_true_iff,
      hscalar, forall_const, Option.mem_some_iff, forall_eq']
    constructor
    · rintro ⟨⟨hblank, hvars, hvalue⟩, hblank', hvars', -⟩
      exact ⟨⟨hblank', hvars'⟩, hvalue, hblank, hvars⟩
    · rintro ⟨⟨hblank', hvars'⟩, hvalue, hblank, hvars⟩
      exact ⟨⟨hblank, hvars, hvalue⟩, hblank', hvars', harrives⟩

theorem Resolved.canName_iff_of_shape {α : Type} {t : Resolved} (h : t.scalar? = none)
    (code : CodeSettings) (vars : List (String × α)) :
    t.CanName code (vars.map Prod.fst) ↔ (t.returnType code).isFree vars = true := by
  have hscalar : ¬ t.IsScalar := by
    rintro (⟨p, hp⟩ | ⟨name, hname⟩)
    · cases p <;> simp [scalar?, hp] at h
    · simp [scalar?, hname] at h
  simp [CanName, namedTypes, h, hscalar, Ty.isFree_eq_true_iff]

/-! ## Return statements have the declared types -/

/-- The types of a result that have a nil: pointers, slices, and capabilities of classes. -/
inductive HasNil : Option Resolved → Ty → Prop
  | pointer {result : Option Resolved} {target : Ty} : HasNil result (.pointer target)
  | slice {result : Option Resolved} {item : Ty} : HasNil result (.slice item)
  | capability {t : Resolved} {className : String} (h : t.required = .remote className) :
      HasNil (some t) (.named (capabilityName className))

section

variable {nilable : Ty → Prop} (vars : Go.Typing)

theorem Scalar.type?_value_eq_some_iff (s : Scalar) {type : Ty} :
    s.value.type? (("value", .named s.arrivesAs) :: vars) = some type ↔
      s.type = type ∧ ∀ target ∈ s.convertTo, target ≠ "value" ∧ Go.isFree vars target = true := by
  have hvalue : Go.lookupName (("value", Ty.named s.arrivesAs) :: vars) "value"
      = some (.named s.arrivesAs) := Go.lookupName_cons_self (by decide)
  unfold value Scalar.type
  cases s.convertTo with
  | none => simp [Expr.type?, hvalue]
  | some target => simp [Expr.type?, hvalue, Go.isFree_cons_iff, and_comm]

theorem Scalar.typed_returnStmts_iff (s : Scalar) {type : Ty}
    (h : type = s.type ∨ type = .pointer s.type) :
    Go.ReturnsTyped nilable [type, .error] vars (s.returnStmts type) ↔ s.CanName vars := by
  have htake : (Expr.assertType (.index (.select (.ident "response") "Result") (.string "value"))
      (.named s.arrivesAs)).type? vars = some (.named s.arrivesAs) ↔
        Go.isFree vars s.arrivesAs = true := by
    simp [Expr.type?, Ty.payload, Ty.isFree, Ty.names]
  have hvalue : s.value ≠ .nil := by
    unfold value
    split <;> exact Expr.noConfusion
  have herror : ∀ vars, responseError.type? vars = some .error := fun _ => rfl
  have hresult : ∀ {type : Ty} {vars : Go.Typing},
      (Expr.addressOf (.ident "result")).type? (("result", type) :: vars)
        = some (.pointer type) := by
    intro type vars
    simp [Expr.type?, Go.lookupName]
  unfold returnStmts Scalar.CanName
  rw [← htake]
  rcases h with rfl | rfl
  · have hplain : ¬ s.type.isPointer = true := Bool.false_ne_true
    simp [hplain, Go.returnsTyped_assert_iff, Go.returnsTyped_return_iff, Go.fitResults_pair_iff,
      s.type?_value_eq_some_iff vars, hvalue, herror]
  · have hpointer : (Ty.pointer s.type).isPointer = true := rfl
    simp [hpointer, Go.returnsTyped_assert_iff, Go.returnsTyped_define_iff,
      Go.returnsTyped_return_iff, Go.fitResults_pair_iff, s.type?_value_eq_some_iff vars, hresult,
      herror, Expr.nil]

theorem type?_placeholder_eq_some_iff {type other : Ty} :
    (placeholder type).type? vars = some other ↔ type = other ∧ type.isFree vars = true := by
  have htype : (placeholder type).type? vars = if type.isFree vars then some type else none := by
    cases type with
    | pointer target =>
      have hnames : (Ty.pointer target).isFree vars = target.isFree vars := rfl
      rw [hnames]
      cases hfree : target.isFree vars <;> simp [placeholder, Expr.type?, hfree]
    | _ => rfl
  rw [htype, Option.ite_none_right_eq_some, and_comm, Option.some_inj]

/-- Of a result that is no scalar only the shape is made, which is all that its type asks for. -/
theorem typed_returnShape_iff {code : CodeSettings} {t : Resolved}
    (h : code.returnPolicy = .absent → nilable (t.returnType code)) :
    Go.ReturnsTyped nilable [t.returnType code, .error] vars (returnShape code t) ↔
      (t.returnType code).isFree vars = true := by
  have hret : ∀ error : Expr, (error.type? (("ret", t.returnType code) :: vars) = some .error ∨
      error = .nil) → (Go.ReturnsTyped nilable [t.returnType code, .error] vars
        [if t.required.isRemote then .declare "ret" (t.returnType code)
          else .define ["ret"] (placeholder (t.returnType code)),
          .return [.ident "ret", error]] ↔ (t.returnType code).isFree vars = true) := by
    intro error herr
    have hfits : Go.ReturnsTyped nilable [t.returnType code, .error]
        (("ret", t.returnType code) :: vars) [.return [.ident "ret", error]] :=
      .return (.cons (Or.inl (Go.lookupName_cons_self (by decide))) (.error herr)) .nil
    split
    · rw [Go.returnsTyped_declare_iff, and_iff_left hfits]
    · rw [Go.returnsTyped_define_iff]
      constructor
      · rintro ⟨type, htype, -⟩
        exact ((type?_placeholder_eq_some_iff vars).1 htype).2
      · exact fun hfree => ⟨_, (type?_placeholder_eq_some_iff vars).2 ⟨rfl, hfree⟩, hfits⟩
  unfold returnShape
  cases hpolicy : code.returnPolicy with
  | absent =>
    have hcondition : (Expr.compare responseError .notEqual .nil).type? vars
        = some (.named "bool") := rfl
    have hearly : Go.ReturnsTyped nilable [t.returnType code, .error] vars
        [.return [.nil, responseError]] :=
      .return (.cons (Or.inr ⟨rfl, h hpolicy⟩) (.error (Or.inl rfl))) .nil
    rw [List.singleton_append, Go.returnsTyped_ifThen_iff, and_iff_right hcondition,
      and_iff_right hearly]
    exact hret _ (Or.inr rfl)
  | zeroValue => exact hret _ (Or.inl rfl)

theorem typed_returnStmts_iff (code : CodeSettings) (m : Method) :
    Go.ReturnsTyped (HasNil m.result) (m.goResults code) vars (returnStmts code m.result) ↔
      ∀ t ∈ m.result, t.CanName code (vars.map Prod.fst) := by
  unfold Method.goResults
  cases hresult : m.result with
  | none => exact iff_of_true (.return (.error (Or.inl rfl)) .nil) (by simp)
  | some t =>
    simp only [returnStmts, Option.mem_some_iff, forall_eq']
    cases hscalar : t.scalar? with
    | some s =>
      rw [Resolved.canName_iff_of_scalar hscalar]
      exact s.typed_returnStmts_iff vars (Resolved.returnType_of_scalar hscalar code)
    | none =>
      rw [Resolved.canName_iff_of_shape hscalar]
      refine typed_returnShape_iff vars fun hpolicy => ?_
      obtain ⟨name, hrequired⟩ | ⟨className, hrequired⟩ | ⟨item, hrequired⟩ :=
        Resolved.cases_of_scalar?_eq_none hscalar
      · rw [Resolved.returnType_of_value hrequired, if_pos (Or.inr hpolicy)]
        exact .pointer
      · rw [Resolved.returnType_of_isNillable (by simp [Resolved.isNillable, hrequired]), hrequired]
        exact .capability hrequired
      · rw [Resolved.returnType_of_isNillable (by simp [Resolved.isNillable, hrequired]), hrequired]
        exact .slice

end

/-! ## Running return statements -/

theorem zero_capability (className : String) :
    (Ty.named (capabilityName className)).zero = .interface none := by
  have hhead : (capabilityName className).toList.head? = some 'I' := by simp [capabilityName]
  unfold Ty.zero
  split
  all_goals
    next heq => simp_all

section

variable (rt : Runtime) (vars : Scope) {response : Value} {error : Option Value}

theorem eval_responseError (h : Go.lookupName vars "response" = some response)
    (herror : response.field? "Error" = some (.interface error)) :
    responseError.eval rt vars = some (.interface error) := by
  simp [responseError, Expr.eval, h, herror]

theorem Scalar.request?_value (s : Scalar) : s.value.request? = none := by
  unfold value
  split <;> rfl

/-- Whatever has arrived, a scalar of the type can be made of it. -/
theorem Scalar.exists_eval_value {t : Resolved} {s : Scalar} (h : t.scalar? = some s)
    (hfree : ∀ target ∈ s.convertTo, target ≠ "value" ∧ Go.isFree vars target = true)
    (arrived : Value) :
    ∃ v, s.value.eval rt (("value", arrived.asserted (.named s.arrivesAs)) :: vars) = some v ∧
      t.NamedValue v := by
  rw [← Resolved.namedValue_required]
  have hident : ∀ type, (Expr.ident "value").eval rt (("value", arrived.asserted type) :: vars)
      = some (arrived.asserted type) := fun type => Go.lookupName_cons_self (by decide)
  have htarget : ∀ target ∈ s.convertTo,
      Go.isFree (("value", arrived.asserted (.named s.arrivesAs)) :: vars) target = true :=
    fun target hmem => Go.isFree_cons_iff.2 (hfree target hmem)
  have htext := Value.exists_text_of_isOf (Value.isOf_asserted rfl arrived)
  have hfloat := Value.exists_float_of_isOf (Value.isOf_asserted rfl arrived)
  have hbool := Value.exists_bool_of_isOf (Value.isOf_asserted rfl arrived)
  unfold Resolved.scalar? at h
  split at h
  all_goals cases h
  case h_1 heq =>
    rw [heq]
    exact ⟨_, hident _, htext⟩
  case h_2 heq =>
    rw [heq]
    exact ⟨_, hident _, hbool⟩
  case h_3 heq =>
    rw [heq]
    exact ⟨_, hident _, hfloat⟩
  case h_4 heq =>
    obtain ⟨x, hx⟩ := hfloat
    have hvalue := Expr.eval_convert ((hident _).trans (congrArg some hx)) "int" rfl
    rw [heq]
    exact ⟨_, hvalue.trans (if_pos (htarget _ rfl)), _, rfl⟩
  case h_5 heq =>
    obtain ⟨x, hx⟩ := hfloat
    have hvalue := Expr.eval_convert ((hident _).trans (congrArg some hx)) "int64" rfl
    rw [heq]
    exact ⟨_, hvalue.trans (if_pos (htarget _ rfl)), _, rfl⟩
  case h_6 name heq =>
    obtain ⟨x, hx⟩ := htext
    have hvalue := Expr.eval_convert_text ((hident _).trans (congrArg some hx)) name
    rw [heq]
    exact ⟨_, hvalue.trans (if_pos (htarget _ rfl)), _, rfl⟩

/-- No scalar can be converted to a type that cannot be named. -/
theorem Scalar.eval_value_eq_none {s : Scalar} {target : String} (h : s.convertTo = some target)
    (hfree : ¬(target ≠ "value" ∧ Go.isFree vars target = true)) (arrived : Value) :
    s.value.eval rt (("value", arrived) :: vars) = none := by
  have hnone : Go.isFree (("value", arrived) :: vars) target = false :=
    Bool.eq_false_iff.2 fun hcons => hfree (Go.isFree_cons_iff.1 hcons)
  simp [value, h, Expr.eval, Expr.free?, hnone]

/-- What has arrived is put into a variable first. -/
theorem Scalar.run_returnStmts_eq {results : Option (List (String × Value))}
    (hresult : response.field? "Result" = some (.map results)) (s : Scalar) (type : Ty) :
    Go.run rt (("response", response) :: vars) (s.returnStmts type)
      = if Go.isFree (("response", response) :: vars) s.arrivesAs then
          Stmt.execAll rt (("value", (((results.getD []).lookup "value").getD
              (.interface none)).asserted (.named s.arrivesAs)) :: ("response", response) :: vars)
            (fun _ => .returns [])
            (if type.isPointer then
              [.define ["result"] s.value, .return [.addressOf (.ident "result"), responseError]]
            else [.return [s.value, responseError]])
        else .stuck := by
  have hentry : (Expr.index (.select (.ident "response") "Result") (.string "value")).eval rt
      (("response", response) :: vars)
        = some (((results.getD []).lookup "value").getD (.interface none)) := by
    simp [Expr.eval, Expr.string, Go.Literal.value?, hresult, Value.entry?, Go.lookupName]
  have hfree : (Ty.named s.arrivesAs).isFree (("response", response) :: vars)
      = Go.isFree (("response", response) :: vars) s.arrivesAs := Bool.and_true _
  unfold returnStmts Go.run
  split <;> rw [Stmt.execAll_assert _ hentry, hfree]

/-- A scalar is taken from the response, and returned with the error of the response. -/
theorem Scalar.run_returnStmts {t : Resolved} {s : Scalar} (h : t.scalar? = some s)
    {results : Option (List (String × Value))}
    (herror : response.field? "Error" = some (.interface error))
    (hresult : response.field? "Result" = some (.map results)) (code : CodeSettings)
    (hnames : s.CanName (("response", response) :: vars)) :
    ∃ v, Go.run rt (("response", response) :: vars) (s.returnStmts (t.returnType code))
        = .returns [v, .interface error] ∧ (t.returnType code).Has t.NamedValue v := by
  obtain ⟨v, hv, hnamed⟩ := exists_eval_value rt (("response", response) :: vars) h hnames.2
    (((results.getD []).lookup "value").getD (.interface none))
  rw [run_returnStmts_eq rt vars hresult, if_pos hnames.1]
  rcases Resolved.returnType_of_scalar h code with htype | htype
  · refine ⟨v, ?_, htype ▸ hnamed⟩
    have hplain : ¬ s.type.isPointer = true := Bool.false_ne_true
    rw [htype, if_neg hplain]
    refine Stmt.execAll_return (Expr.evalAll_pair hv (eval_responseError rt _ ?_ herror))
    simp [Go.lookupName, List.lookup_cons]
  · refine ⟨.pointer (some v), ?_, ?_⟩
    · have hpointer : (Ty.pointer s.type).isPointer = true := rfl
      rw [htype, if_pos hpointer, Stmt.execAll_define s.request?_value hv]
      refine Stmt.execAll_return (Expr.evalAll_pair ?_ (eval_responseError rt _ ?_ herror))
      · simp [Expr.eval, Go.lookupName]
      · simp [Go.lookupName, List.lookup_cons]
    · rw [htype]
      rintro w ⟨⟩
      exact hnamed

/-- Where a type of the block cannot be named, no scalar is returned. -/
theorem Scalar.run_returnStmts_eq_stuck {results : Option (List (String × Value))} {s : Scalar}
    (hresult : response.field? "Result" = some (.map results)) (type : Ty)
    (hnames : ¬ s.CanName (("response", response) :: vars)) :
    Go.run rt (("response", response) :: vars) (s.returnStmts type) = .stuck := by
  rw [run_returnStmts_eq rt vars hresult]
  split
  · next harrives =>
    have hconvert : ¬ ∀ target ∈ s.convertTo, target ≠ "value" ∧
        Go.isFree (("response", response) :: vars) target = true :=
      fun hconvert => hnames ⟨harrives, hconvert⟩
    simp only [not_forall, exists_prop] at hconvert
    obtain ⟨target, htarget, hhidden⟩ := hconvert
    have hvalue := eval_value_eq_none rt (("response", response) :: vars) htarget hhidden
    split
    · exact Stmt.execAll_define_stuck s.request?_value (hvalue _)
    · simp only [Stmt.execAll, Stmt.exec, Expr.evalAll, hvalue]
  · rfl

/-- The statement that makes the shape of a result gives the variable a value of its type. -/
theorem execAll_makeShape {t : Resolved} (h : t.scalar? = none) (code : CodeSettings)
    (hfree : (t.returnType code).isFree vars = true) (go : Scope → Go.Behavior)
    (rest : List Stmt) :
    ∃ v, Stmt.execAll rt vars go
        ((if t.required.isRemote then .declare "ret" (t.returnType code)
          else .define ["ret"] (placeholder (t.returnType code))) :: rest)
          = Stmt.execAll rt (("ret", v) :: vars) go rest ∧
        (t.returnType code).Has t.NamedValue v := by
  rw [← Resolved.namedValue_required]
  obtain ⟨name, hrequired⟩ | ⟨className, hrequired⟩ | ⟨item, hrequired⟩ :=
    Resolved.cases_of_scalar?_eq_none h
  · have hstruct : (Resolved.value name).NamedValue (.struct []) := ⟨[], rfl⟩
    have htype : t.returnType code = .pointer (.named name) ∨ t.returnType code = .named name := by
      rw [Resolved.returnType_of_value hrequired]
      exact ite_eq_or_eq _ _ _
    rw [hrequired]
    rcases htype with htype | htype <;> rw [htype] at hfree ⊢
    · have htarget : (Ty.named name).isFree vars = true := hfree
      refine ⟨.pointer (some (.struct [])), Stmt.execAll_define rfl ?_, ?_⟩
      · simp [placeholder, Expr.eval, Ty.empty?, htarget]
      · rintro w ⟨⟩
        exact hstruct
    · refine ⟨.struct [], Stmt.execAll_define rfl ?_, hstruct⟩
      simp [placeholder, Expr.eval, Ty.empty?, hfree]
  · rw [Resolved.returnType_of_isNillable (by simp [Resolved.isNillable, hrequired]), hrequired]
      at hfree ⊢
    exact ⟨_, (Stmt.execAll_declare _ _).trans (if_pos hfree), none, zero_capability className⟩
  · rw [Resolved.returnType_of_isNillable (by simp [Resolved.isNillable, hrequired]), hrequired]
      at hfree ⊢
    refine ⟨.slice (some []), Stmt.execAll_define rfl ?_, ?_⟩
    · rw [Resolved.goType] at hfree ⊢
      simp [placeholder, Expr.eval, Ty.empty?, hfree]
    · rintro w ⟨⟩

theorem eval_placeholder_eq_none {type : Ty} (h : type.isFree vars = false) :
    (placeholder type).eval rt vars = none := by
  cases type with
  | pointer target =>
    have htarget : target.isFree vars = false := h
    simp [placeholder, Expr.eval, htarget]
  | _ => simp [placeholder, Expr.eval, h]

theorem execAll_makeShape_eq_stuck {t : Resolved} (code : CodeSettings)
    (hfree : (t.returnType code).isFree vars = false) (go : Scope → Go.Behavior)
    (rest : List Stmt) :
    Stmt.execAll rt vars go
      ((if t.required.isRemote then .declare "ret" (t.returnType code)
        else .define ["ret"] (placeholder (t.returnType code))) :: rest) = .stuck := by
  split
  · rw [Stmt.execAll_declare, hfree]
    rfl
  · refine Stmt.execAll_define_stuck ?_ (eval_placeholder_eq_none rt vars hfree)
    cases t.returnType code <;> rfl

/-- A result that is no scalar is empty, and nil if there is an error and absence has to be told. -/
theorem run_returnShape {t : Resolved} (h : t.scalar? = none) (code : CodeSettings)
    (herror : response.field? "Error" = some (.interface error))
    (hfree : (t.returnType code).isFree (("response", response) :: vars) = true) :
    ∃ v, Go.run rt (("response", response) :: vars) (returnShape code t)
        = .returns [v, .interface error] ∧
      (v.isNil = true ∨ (t.returnType code).Has t.NamedValue v) ∧
      (code.returnPolicy = .absent → error ≠ none → v.isNil = true) := by
  have herr : ∀ vars : Scope, Go.lookupName vars "response" = some response →
      responseError.eval rt vars = some (.interface error) := fun vars hvars =>
    eval_responseError rt vars hvars herror
  have hhere : Go.lookupName (("response", response) :: vars) "response" = some response :=
    Go.lookupName_cons_self (by decide)
  simp only [returnShape, Go.run]
  cases hpolicy : code.returnPolicy with
  | zeroValue =>
    obtain ⟨v, hv, hhas⟩ := execAll_makeShape rt (("response", response) :: vars) h code hfree
      (fun _ => .returns []) [.return [.ident "ret", responseError]]
    refine ⟨v, ?_, Or.inr hhas, ReturnPolicy.noConfusion⟩
    rw [List.nil_append, hv]
    refine Stmt.execAll_return (Expr.evalAll_pair ?_ (herr _ ?_))
    · exact Go.lookupName_cons_self (by decide)
    · rw [Go.lookupName_cons_of_ne (by decide), hhere]
  | absent =>
    have hcondition : (Expr.compare responseError .notEqual .nil).eval rt
        (("response", response) :: vars) = some (.bool error.isSome) :=
      Expr.eval_compare (herr _ hhere) .notEqual .nil
    rw [List.singleton_append, Stmt.execAll_ifThen _ hcondition]
    cases error with
    | some e =>
      refine ⟨.interface none, ?_, Or.inl rfl, fun _ _ => rfl⟩
      exact Stmt.execAll_return (Expr.evalAll_pair rfl (herr _ hhere))
    | none =>
      obtain ⟨v, hv, hhas⟩ := execAll_makeShape rt (("response", response) :: vars) h code hfree
        (fun _ => .returns []) [.return [.ident "ret", .nil]]
      refine ⟨v, ?_, Or.inr hhas, fun _ hne => absurd rfl hne⟩
      rw [Option.isSome_none, cond_false, hv]
      exact Stmt.execAll_return (Expr.evalAll_pair (Go.lookupName_cons_self (by decide)) rfl)

/-- Where the type of a result cannot be named, no shape is made of it, unless an error is returned
    before. -/
theorem run_returnShape_eq_stuck {t : Resolved} (code : CodeSettings)
    (herror : response.field? "Error" = some (.interface none))
    (hfree : (t.returnType code).isFree (("response", response) :: vars) = false) :
    Go.run rt (("response", response) :: vars) (returnShape code t) = .stuck := by
  have hcondition : (Expr.compare responseError .notEqual .nil).eval rt
      (("response", response) :: vars) = some (.bool false) :=
    Expr.eval_compare (eval_responseError rt _ (Go.lookupName_cons_self (by decide)) herror)
      .notEqual .nil
  simp only [returnShape, Go.run]
  cases code.returnPolicy with
  | zeroValue => exact execAll_makeShape_eq_stuck rt _ code hfree _ _
  | absent =>
    rw [List.singleton_append, Stmt.execAll_ifThen _ hcondition]
    exact execAll_makeShape_eq_stuck rt _ code hfree _ _

/-- Without an error nothing is returned before the types are named. -/
theorem run_returnStmts_eq_stuck {t : Resolved} {results : Option (List (String × Value))}
    (code : CodeSettings) (herror : response.field? "Error" = some (.interface none))
    (hresult : response.field? "Result" = some (.map results))
    (hnames : ¬ t.CanName code ("response" :: vars.map Prod.fst)) :
    Go.run rt (("response", response) :: vars) (returnStmts code (some t)) = .stuck := by
  have hhidden : ¬ t.CanName code (List.map Prod.fst (("response", response) :: vars)) := hnames
  simp only [returnStmts]
  cases hscalar : t.scalar? with
  | some s =>
    rw [Resolved.canName_iff_of_scalar hscalar] at hhidden
    exact Scalar.run_returnStmts_eq_stuck rt vars hresult _ hhidden
  | none =>
    rw [Resolved.canName_iff_of_shape hscalar] at hhidden
    exact run_returnShape_eq_stuck rt vars code herror (Bool.eq_false_iff.2 hhidden)

end

namespace Method

/-- What is expected of a block: it returns the error of the response behind a value for every other
    result, of its type or nil. Where absence is told, a result that is no scalar is nil if there is
    an error. -/
def ReturnsError (code : CodeSettings) (m : Method) (error : Option Value) (values : List Value) :
    Prop :=
  values.length = (m.goResults code).length ∧ values.getLast? = some (.interface error) ∧
    ∀ t ∈ m.result, ∃ v, values = [v, .interface error] ∧
      (v.isNil = true ∨ (t.returnType code).Has t.NamedValue v) ∧
      (code.returnPolicy = .absent → ¬ t.IsScalar → error ≠ none → v.isNil = true)

/-- **A method returns what it declares, and hands on the error of the response, exactly if its
    types can be named.** Then every return statement has as many values as there are results, of
    the declared types or nil where the type of the result has one, and whatever the response, the
    statements return its error. A type cannot be named if it is called `_` or like a variable in
    scope; for a scalar that includes the variable `value`. -/
theorem returns_results_and_error (rt : Runtime) (code : CodeSettings) (m : Method)
    (responseType : Ty) (types : Go.Typing) (vars : Scope) :
    (Go.ReturnsTyped (HasNil m.result) (m.goResults code) (("response", responseType) :: types)
        (returnStmts code m.result) ↔
      ∀ t ∈ m.result, t.CanName code ("response" :: types.map Prod.fst)) ∧
    ((∀ response error results, response.field? "Error" = some (.interface error) →
        response.field? "Result" = some (.map results) →
        ∃ values, Go.run rt (("response", response) :: vars) (returnStmts code m.result)
            = .returns values ∧ m.ReturnsError code error values) ↔
      ∀ t ∈ m.result, t.CanName code ("response" :: vars.map Prod.fst)) := by
  refine ⟨typed_returnStmts_iff _ code m, ?_, ?_⟩
  · intro hruns t ht
    obtain ⟨values, hrun, -⟩ := hruns
      (.struct [("Error", .interface none), ("Result", .map none)]) none none rfl rfl
    by_contra hnames
    rw [Option.mem_def.1 ht, run_returnStmts_eq_stuck rt vars code rfl rfl hnames] at hrun
    cases hrun
  · intro hnames response error results herror hresult
    unfold ReturnsError goResults
    cases hm : m.result with
    | none =>
      refine ⟨[.interface error], ?_, rfl, rfl, by simp⟩
      have hvalues : Expr.evalAll rt (("response", response) :: vars) [responseError]
          = some [.interface error] := by
        simp only [Expr.evalAll, eval_responseError rt (("response", response) :: vars)
          (Go.lookupName_cons_self (by decide)) herror]
      exact Stmt.execAll_return hvalues
    | some t =>
      have hcan : t.CanName code (List.map Prod.fst (("response", response) :: vars)) :=
        hnames t hm
      simp only [returnStmts, Option.mem_some_iff, forall_eq']
      cases hscalar : t.scalar? with
      | some s =>
        rw [Resolved.canName_iff_of_scalar hscalar] at hcan
        obtain ⟨v, hrun, hhas⟩ := Scalar.run_returnStmts rt vars hscalar herror hresult code hcan
        refine ⟨_, hrun, rfl, rfl, v, rfl, Or.inr hhas, fun _ hnot => absurd ?_ hnot⟩
        exact Resolved.isScalar_of_scalar? hscalar
      | none =>
        rw [Resolved.canName_iff_of_shape hscalar] at hcan
        obtain ⟨v, hrun, hhas, hnil⟩ := run_returnShape rt vars hscalar code herror hcan
        exact ⟨_, hrun, rfl, rfl, v, rfl, hhas, fun hpolicy _ => hnil hpolicy⟩

/-- A method whose result is a record, or nothing. -/
def getTag : Method where
  goName := "GetTag"
  wireName := "getTag"
  doc := []
  params := []
  result := some (.optional (.value "Tag"))

/-- No record is made up when the server answers with an error. -/
theorem getTag_returns_nil_and_error :
    Go.ReturnsTyped (HasNil getTag.result) (getTag.goResults .default)
        [("response", .named "Response")] (returnStmts .default getTag.result) ∧
      ∃ v, Go.run ⟨fun _ => "", fun _ => []⟩
          [("response",
            .struct [("Error", .interface (some (.text "gone"))), ("Result", .map none)])]
          (returnStmts .default getTag.result)
        = .returns [v, .interface (some (.text "gone"))] ∧ v.isNil = true := by
  have hnames : ∀ t ∈ getTag.result, t.CanName .default ["response"] := by
    rintro t ⟨⟩ name hname
    obtain rfl := List.mem_singleton.1 hname
    refine ⟨by decide, by decide, ?_⟩
    rintro (⟨p, hp⟩ | ⟨name, hname⟩)
    · exact Resolved.noConfusion hp
    · exact Resolved.noConfusion hname
  obtain ⟨htyped, hruns⟩ := returns_results_and_error ⟨fun _ => "", fun _ => []⟩ .default getTag
    (.named "Response") [] []
  obtain ⟨values, hrun, -, -, hvalues⟩ := hruns.2 hnames
    (.struct [("Error", .interface (some (.text "gone"))), ("Result", .map none)])
    (some (.text "gone")) none rfl rfl
  obtain ⟨v, rfl, -, hnil⟩ := hvalues _ rfl
  refine ⟨htyped.2 hnames, v, hrun, hnil rfl ?_ (Option.some_ne_none _)⟩
  rintro (⟨p, hp⟩ | ⟨name, hname⟩)
  · exact Resolved.noConfusion hp
  · exact Resolved.noConfusion hname

/-- A method that returns a value of an enumeration called `value`. -/
def getValue : Method where
  goName := "GetValue"
  wireName := "getValue"
  doc := []
  params := []
  result := some (.enum "value")

/-- The conversion is a call of the variable, and no error gets through. -/
theorem getValue_calls_its_variable :
    returnStmts .default getValue.result
        = [.define ["value", "_"] (.assertType
            (.index (.select (.ident "response") "Result") (.string "value")) (.named "string")),
          .return [.call (.ident "value") [.ident "value"], .select (.ident "response") "Error"]] ∧
      ¬ Go.ReturnsTyped (HasNil getValue.result) (getValue.goResults .default)
        [("response", .named "Response")] (returnStmts .default getValue.result) ∧
      Go.run ⟨fun _ => "", fun _ => []⟩
        [("response", .struct [("Error", .interface none), ("Result", .map none)])]
        (returnStmts .default getValue.result) = .stuck := by
  have hhidden : ¬ (Resolved.enum "value").CanName .default ["response"] := fun hnames =>
    (hnames "value" List.mem_cons_self).2.2 (Or.inr ⟨"value", rfl⟩) rfl
  refine ⟨rfl, ?_, run_returnStmts_eq_stuck _ [] .default rfl rfl hhidden⟩
  rw [typed_returnStmts_iff]
  exact fun hnames => hhidden (hnames _ rfl)

end Method

end Binding

end GoBindings
