import GoBindings.Binding.Method

set_option autoImplicit false

/-! # Method stubs

A stub sends its arguments to the server and waits for the response. Arguments that are absent or
zero are not sent. A scalar result is taken from the response; of any other result only the shape is
made. -/

namespace GoBindings.Binding

open Go (Expr Stmt Ty)

/-! ## Arguments -/

/-- A remote object travels as its text form. -/
def textForm (x : Expr) : Expr :=
  .call (.select (.ident "fmt") "Sprintf") [.string "%s", x]

/-- The packages that `textForm` needs. -/
def textFormPackages : List String := ["fmt"]

namespace Param

def ident (p : Param) : Expr := .ident p.goName

/-- The condition under which an argument is sent. -/
def guard (style : OptionalStyle) (p : Param) : Expr :=
  if p.type.isPointerOptional style then .compare p.ident .notEqual .nil
  else match p.type.required with
    | .primitive .text | .enum _ => .compare p.ident .notEqual (.string "")
    | .primitive .int | .primitive .int64 | .primitive .float =>
      .compare p.ident .notEqual .zero
    | .primitive .boolean => p.ident
    | .value _ =>
      .not (.call (.select (.call (.select (.ident "reflect") "ValueOf") [p.ident]) "IsZero") [])
    | .collection _ => .compare (.call (.ident "len") [p.ident]) .greater .zero
    | .remote _ | .optional _ => .compare p.ident .notEqual .nil

def guardPackages (style : OptionalStyle) (p : Param) : List String :=
  if p.type.isPointerOptional style then []
  else match p.type.required with
    | .value _ => ["reflect"]
    | _ => []

/-- What is sent for an argument. -/
def wireValue (p : Param) : Expr :=
  if p.type.required.isRemote then textForm p.ident else p.ident

def wirePackages (p : Param) : List String :=
  if p.type.required.isRemote then textFormPackages else []

/-- Puts the argument into the map of arguments, if it is to be sent. -/
def send (style : OptionalStyle) (p : Param) : Stmt :=
  .ifThen (p.guard style) [.assign (.index (.ident "params") (.string p.wireName)) p.wireValue]

def packages (style : OptionalStyle) (p : Param) : List String :=
  p.guardPackages style ++ p.wirePackages

end Param

/-! ## Results -/

/-- How a scalar is taken from the response: the type it arrives with, and the type it is converted
    to. Numbers arrive as floating point numbers. -/
structure Scalar where
  arrivesAs : String
  convertTo : Option String
deriving DecidableEq, Repr

namespace Resolved

def scalar? (t : Resolved) : Option Scalar :=
  match t.required with
  | .primitive .text => some ⟨"string", none⟩
  | .primitive .boolean => some ⟨"bool", none⟩
  | .primitive .float => some ⟨"float64", none⟩
  | .primitive .int => some ⟨"float64", some "int"⟩
  | .primitive .int64 => some ⟨"float64", some "int64"⟩
  | .enum name => some ⟨"string", some name⟩
  | _ => none

end Resolved

def responseError : Expr := .select (.ident "response") "Error"

namespace Scalar

def value (s : Scalar) : Expr :=
  match s.convertTo with
  | some type => .call (.ident type) [.ident "value"]
  | none => .ident "value"

/-- Returns the scalar, through a pointer if the type asks for one. -/
def returnStmts (s : Scalar) (type : Ty) : List Stmt :=
  let take : Stmt :=
    .define ["value", "_"]
      (.assertType (.index (.select (.ident "response") "Result") (.string "value"))
        (.named s.arrivesAs))
  if type.isPointer then
    [take, .define ["result"] s.value,
      .return [.addressOf (.ident "result"), responseError]]
  else [take, .return [s.value, responseError]]

end Scalar

/-- An empty value of a type, or a pointer to one. -/
def placeholder : Ty → Expr
  | .pointer target => .addressOf (.emptyOf target)
  | type => .emptyOf type

/-- Returns an empty result. -/
def returnShape (code : CodeSettings) (t : Resolved) : List Stmt :=
  let type := t.returnType code
  let onError : List Stmt := match code.returnPolicy with
    | .absent =>
      [.ifThen (.compare responseError .notEqual .nil) [.return [.nil, responseError]]]
    | .zeroValue => []
  let make : Stmt :=
    if t.required.isRemote then .declare "ret" type else .define ["ret"] (placeholder type)
  let error := match code.returnPolicy with
    | .absent => Expr.nil
    | .zeroValue => responseError
  onError ++ [make, .return [.ident "ret", error]]

def returnStmts (code : CodeSettings) : Option Resolved → List Stmt
  | none => [.return [responseError]]
  | some t =>
    match t.scalar? with
    | some scalar => scalar.returnStmts (t.returnType code)
    | none => returnShape code t

/-! ## The whole stub -/

/-- The receiver of every function of a class. -/
def receiver (className : String) : Go.Param where
  name := "elem"
  type := .pointer (.named className)

namespace Method

/-- Collects the arguments that are sent; nothing if there are no parameters. -/
def collectArgs (style : OptionalStyle) (m : Method) : List Stmt :=
  if m.params.isEmpty then []
  else .define ["params"] (.mapOf .payload []) :: m.params.map fun p => p.send style

/-- What the server is told. -/
def payload (m : Method) : List (Expr × Expr) :=
  let call : List (Expr × Expr) :=
    [(.string "operation", .string m.wireName),
      (.string "object", .select (.ident "elem") "Id")]
  if m.params.isEmpty then call else call ++ [(.string "operationParams", .ident "params")]

def stubBody (code : CodeSettings) (m : Method) : List Stmt :=
  [.define ["req"] (.call (.select (.ident "elem") "getInvokeRequest") [])] ++
    m.collectArgs code.optionalStyle ++
    [.assign (.index (.ident "req") (.string "params")) (.mapOf .payload m.payload),
      .comment "call server and wait for the response",
      .define ["response"]
        (.receive (.call (.select (.select (.ident "elem") "connection") "Request")
          [.ident "req"]))] ++
    returnStmts code m.result

def stub (code : CodeSettings) (className : String) (m : Method) : Go.Func where
  doc := m.doc
  receiver := some (receiver className)
  name := m.goName
  params := m.goParams code.optionalStyle
  results := m.goResults code
  body := m.stubBody code

def packages (style : OptionalStyle) (m : Method) : List String :=
  m.params.flatMap fun p => p.packages style

end Method

end GoBindings.Binding
