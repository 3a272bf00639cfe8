import GoBindings.Proofs.Outcome
import GoBindings.Proofs.TypeNames

set_option autoImplicit false

/-! # Running Go statements

As much of the meaning of Go as generated functions need. No generated function has two names for
one map, so a map is a value like any other, and an assignment to an entry changes the variable that
holds the map.

A name that is bound to a variable stands for that variable wherever the variable is in scope, and
for nothing else (`lookupName`). Builtins, packages and types are meant only by names that no
variable has (`isFree`): a call of a variable's name is no conversion, and no type can be named that
a variable hides. A variable is in scope behind the statement that brings it in. The blank name `_`
may be bound, and stands for nothing.

A function that asks the server for something goes on with the answer. Its behaviour is therefore a
tree: what it asks, and what it does next for each answer. -/

namespace GoBindings.Go

/-! ## Values -/

/-- A value of any type. What may be nil is given by an option. -/
inductive Value
  /-- A value of type string, or of a type declared as string. -/
  | text (s : String)
  | int (n : Int)
  | float (x : Float)
  | bool (b : Bool)
  | slice (items : Option (List Value))
  | pointer (target : Option Value)
  /-- A value of an interface type, with what it holds. -/
  | interface (held : Option Value)
  /-- A struct with its fields, those of embedded structs included. -/
  | struct (fields : List (String × Value))
  | map (entries : Option (List (String × Value)))
  /-- The result of `reflect.ValueOf`. -/
  | reflected (v : Value)

namespace Value

mutual

/-- The zero value of its type, as `IsZero` of package reflect says. -/
def isZero : Value → Bool
  | text s => s == ""
  | int n => n == 0
  | float x => x == 0
  | bool b => !b
  | slice items => items.isNone
  | pointer target => target.isNone
  | interface held => held.isNone
  | struct fields => allZero fields
  | map entries => entries.isNone
  | reflected _ => false

def allZero : List (String × Value) → Bool
  | [] => true
  | (_, v) :: fields => v.isZero && allZero fields

end

def isNil : Value → Bool
  | slice items => items.isNone
  | pointer target => target.isNone
  | interface held => held.isNone
  | map entries => entries.isNone
  | _ => false

/-- The length of a slice; a nil slice is empty. -/
def length? : Value → Option Nat
  | slice items => some (items.getD []).length
  | _ => none

/-- A field of a struct, or of the struct that a pointer points to. -/
def field? (name : String) : Value → Option Value
  | struct fields => fields.lookup name
  | pointer (some (struct fields)) => fields.lookup name
  | _ => none

/-- Whether a value compares with a constant, which takes the type of the value. -/
def compare? : Value → Comparison → Literal → Option Bool
  | text s, .notEqual, .string t => some (s != t)
  | int n, .notEqual, .int m => some (n != m)
  | int n, .greater, .int m => some (decide (n > m))
  | float x, .notEqual, .int m => some (x != Float.ofInt m)
  | pointer target, .notEqual, .nil => some target.isSome
  | interface held, .notEqual, .nil => some held.isSome
  | _, _, _ => none

/-- What is found in a map from names to values of any type; nil under a name that it has not. -/
def entry? : Value → Value → Option Value
  | map entries, text key => some (((entries.getD []).lookup key).getD (interface none))
  | _, _ => none

/-- A value converted to a type: a number to a whole number, towards zero, and a text to a type
    that is declared as string. -/
def convert? : String → List Value → Option Value
  | "int", [float x] | "int64", [float x] => some (int x.toInt64.toInt)
  | _, [text s] => some (text s)
  | _, _ => none

end Value

namespace Ty

/-- What an empty literal of the type makes; a struct has none of its fields set. -/
def empty? : Ty → Option Value
  | named _ => some (.struct [])
  | slice _ => some (.slice (some []))
  | map _ _ => some (.map (some []))
  | pointer _ => none

/-- The zero value of a type. Generated functions need it of no declared types but interfaces. -/
def zero : Ty → Value
  | named "string" => .text ""
  | named "int" | named "int64" => .int 0
  | named "float64" => .float 0
  | named "bool" => .bool false
  | named _ => .interface none
  | slice _ => .slice none
  | pointer _ => .pointer none
  | map _ _ => .map none

end Ty

namespace Value

/-- The value is of a type of the language. -/
def isOf : Value → Ty → Bool
  | text _, type => type = .named "string"
  | int _, type => type = .named "int"
  | float _, type => type = .named "float64"
  | bool _, type => type = .named "bool"
  | _, _ => false

/-- What an interface holds, if that is of the type asked for, and the zero value of the type
    otherwise. -/
def asserted (type : Ty) : Value → Value
  | interface (some v) | v => if v.isOf type then v else type.zero

theorem isOf_asserted {type : Ty} (h : type.zero.isOf type = true) (v : Value) :
    (v.asserted type).isOf type = true := by
  unfold asserted
  split
  · split
    · assumption
    · exact h
  · split
    · assumption
    · exact h

theorem exists_text_of_isOf {v : Value} (h : v.isOf (.named "string") = true) :
    ∃ s, v = text s := by
  cases v <;> simp [isOf] at h ⊢

theorem exists_float_of_isOf {v : Value} (h : v.isOf (.named "float64") = true) :
    ∃ x, v = float x := by
  cases v <;> simp [isOf] at h ⊢

theorem exists_bool_of_isOf {v : Value} (h : v.isOf (.named "bool") = true) :
    ∃ b, v = bool b := by
  cases v <;> simp [isOf] at h ⊢

end Value

/-- The map with an entry set. -/
def setEntry (entries : List (String × Value)) (key : String) (v : Value) : List (String × Value) :=
  (key, v) :: entries.filter fun e => e.1 != key

theorem lookup_setEntry (entries : List (String × Value)) (key : String) (v : Value)
    (name : String) :
    (setEntry entries key v).lookup name = if name = key then some v else entries.lookup name := by
  by_cases hname : name = key
  · simp [setEntry, hname]
  · have hne : (name == key) = false := by simpa using hname
    -- what was taken out had another name
    have hrest : (entries.filter fun e => e.1 != key).lookup name = entries.lookup name := by
      induction entries with
      | nil => rfl
      | cons e entries ih =>
        obtain ⟨other, w⟩ := e
        by_cases hother : other = key
        · simp [List.lookup_cons, hother, hne, ih]
        · simp [List.lookup_cons, hother, ih]
    rw [setEntry, List.lookup_cons, hne, if_neg hname, hrest]

/-- The map with the entries of another one put over its own, one after the other. -/
def setEntries (entries added : List (String × Value)) : List (String × Value) :=
  added.foldl (fun acc e => setEntry acc e.1 e.2) entries

theorem lookup_setEntries {added : List (String × Value)} (h : (added.map Prod.fst).Nodup)
    (entries : List (String × Value)) (name : String) :
    (setEntries entries added).lookup name = (added.lookup name).or (entries.lookup name) := by
  unfold setEntries
  induction added generalizing entries with
  | nil => rfl
  | cons e added ih =>
    obtain ⟨key, v⟩ := e
    obtain ⟨hkey, hadded⟩ := List.nodup_cons.1 h
    rw [List.foldl_cons, ih hadded, lookup_setEntry, List.lookup_cons]
    by_cases hname : name = key
    · -- no later entry has the name
      have hlater : added.lookup name = none := by
        refine List.lookup_eq_none_iff.2 fun e he => bne_iff_ne.2 ?_
        rintro rfl
        exact hkey (List.mem_map.2 ⟨e, he, hname⟩)
      simp [hname ▸ hlater, hname]
    · simp [hname, beq_false_of_ne hname]

/-! ## Names -/

section Names

variable {α : Type} (vars : List (String × α)) (name : String)

/-- What is known of the variable that a name stands for; the blank name stands for none. -/
def lookupName : Option α := if name = "_" then none else vars.lookup name

/-- No variable has the name, so it can stand for something that is declared outside of functions;
    the blank name stands for nothing. -/
def isFree : Bool := name != "_" && (vars.lookup name).isNone

variable {vars name}

theorem lookupName_of_ne (h : name ≠ "_") : lookupName vars name = vars.lookup name := if_neg h

theorem lookupName_cons_self {a : α} (h : name ≠ "_") :
    lookupName ((name, a) :: vars) name = some a := by
  rw [lookupName_of_ne h, List.lookup_cons_self]

theorem lookupName_cons_of_ne {other : String} {a : α} (h : name ≠ other) :
    lookupName ((other, a) :: vars) name = lookupName vars name := by
  rw [lookupName, lookupName, List.lookup_cons, beq_false_of_ne h]

theorem isFree_cons_of_ne {other : String} {a : α} (h : name ≠ other) :
    isFree ((other, a) :: vars) name = isFree vars name := by
  rw [isFree, isFree, List.lookup_cons, beq_false_of_ne h]

theorem isFree_cons_iff {other : String} {a : α} :
    isFree ((other, a) :: vars) name = true ↔ name ≠ other ∧ isFree vars name = true := by
  by_cases h : name = other
  · simp [isFree, h]
  · simp [isFree_cons_of_ne h, h]

theorem isFree_eq_true_iff : isFree vars name = true ↔ name ≠ "_" ∧ name ∉ vars.map Prod.fst := by
  rw [isFree, Bool.and_eq_true, bne_iff_ne, Option.isNone_iff_eq_none, lookup_eq_none_iff_not_mem]

end Names

/-- The type can be named: no variable hides a type in it. -/
def Ty.isFree {α : Type} (vars : List (String × α)) (type : Ty) : Bool :=
  type.names.all (Go.isFree vars)

theorem Ty.isFree_eq_true_iff {α : Type} {vars : List (String × α)} {type : Ty} :
    type.isFree vars = true ↔ ∀ name ∈ type.names, name ≠ "_" ∧ name ∉ vars.map Prod.fst := by
  simp only [Ty.isFree, List.all_eq_true, Go.isFree_eq_true_iff]

theorem Ty.isFree_cons {α : Type} {vars : List (String × α)} {type : Ty} {name : String} {a : α}
    (hname : name ∉ type.names) (h : type.isFree vars = true) :
    type.isFree ((name, a) :: vars) = true := by
  refine List.all_eq_true.2 fun other hother => ?_
  rw [Go.isFree_cons_of_ne (ne_of_mem_of_not_mem hother hname)]
  exact List.all_eq_true.1 h other hother

/-! ## Variables -/

/-- Variables with their values, the innermost first. -/
abbrev Scope := List (String × Value)

namespace Scope

/-- Gives a variable that is there another value. -/
def set (vars : Scope) (name : String) (v : Value) : Scope :=
  match vars with
  | [] => []
  | x :: rest => if x.1 == name then (name, v) :: rest else x :: set rest name v

/-- The variables of a block's surroundings when the block ends. -/
def leave (outside inside : Scope) : Scope := inside.drop (inside.length - outside.length)

theorem lookup_cons_of_ne {vars : Scope} {name other : String} {v : Value} (h : name ≠ other) :
    List.lookup name ((other, v) :: vars) = vars.lookup name := by
  rw [List.lookup_cons, beq_false_of_ne h]

theorem lookupName_set_self {vars : Scope} {name : String} {v w : Value}
    (h : lookupName vars name = some v) : lookupName (set vars name w) name = some w := by
  have hname : name ≠ "_" := by
    rintro rfl
    cases h
  induction vars with
  | nil =>
    rw [lookupName_of_ne hname] at h
    cases h
  | cons x vars ih =>
    obtain ⟨other, u⟩ := x
    unfold set
    by_cases hother : other = name
    · rw [if_pos (by simpa using hother), lookupName_cons_self hname]
    · rw [lookupName_cons_of_ne (Ne.symm hother)] at h
      rw [if_neg (by simpa using hother), lookupName_cons_of_ne (Ne.symm hother)]
      exact ih h

end Scope

/-! ## Expressions -/

/-- What the hand-written part of the package and the standard library do. -/
structure Runtime where
  /-- What `fmt.Sprintf` makes of a value with the verb `%s`. -/
  textOf : Value → String
  /-- The request that an object makes ready. -/
  invokeRequest : Value → List (String × Value)

namespace Runtime

def builtin : String → List Value → Option Value
  | "len", [v] => v.length?.map fun n => .int n
  | _, _ => none

def packageCall (rt : Runtime) : String → String → List Value → Option Value
  | "fmt", "Sprintf", [.text "%s", v] => some (.text (rt.textOf v))
  | "reflect", "ValueOf", [v] => some (.reflected v)
  | _, _, _ => none

def methodCall (rt : Runtime) : Value → String → List Value → Option Value
  | .reflected v, "IsZero", [] => some (.bool v.isZero)
  | receiver, "getInvokeRequest", [] => some (.map (some (rt.invokeRequest receiver)))
  | _, _, _ => none

end Runtime

/-- The value of a constant. What nil is takes its type from where it stands; here it is that of an
    interface. -/
def Literal.value? : Literal → Option Value
  | string s => some (.text s)
  | int n => some (.int n)
  | float x => some (.float x)
  | bool b => some (.bool b)
  | nil => some (.interface none)

namespace Expr

/-- A name that no variable has. -/
def free? (vars : Scope) : Expr → Option String
  | ident name => if isFree vars name then some name else none
  | _ => none

mutual

/-- The value of an expression, if it has one. -/
def eval (rt : Runtime) (vars : Scope) : Expr → Option Value
  | ident name => lookupName vars name
  | literal l => l.value?
  | select x field => (x.eval rt vars).bind (Value.field? field)
  | call (ident name) args =>
    match (ident name).free? vars, evalAll rt vars args with
    -- no function is called by its bare name but builtins, so the rest are types
    | some called, some values => (Runtime.builtin called values).or (Value.convert? called values)
    | _, _ => none
  | call (select x name) args =>
    match x.free? vars, x.eval rt vars, evalAll rt vars args with
    | some package, _, some values => rt.packageCall package name values
    | none, some receiver, some values => rt.methodCall receiver name values
    | _, _, _ => none
  | index x i =>
    match x.eval rt vars, i.eval rt vars with
    | some v, some key => v.entry? key
    | _, _ => none
  | mapOf type entries =>
    if type.isFree vars then (evalEntries rt vars entries).map fun es => .map (some es) else none
  | emptyOf type => if type.isFree vars then type.empty? else none
  | compare left op (literal l) =>
    match left.eval rt vars with
    | some v => (v.compare? op l).map .bool
    | none => none
  | not x =>
    match x.eval rt vars with
    | some (.bool b) => some (.bool !b)
    | _ => none
  | addressOf x => (x.eval rt vars).map fun v => .pointer (some v)
  | _ => none

def evalAll (rt : Runtime) (vars : Scope) : List Expr → Option (List Value)
  | [] => some []
  | x :: xs =>
    match x.eval rt vars, evalAll rt vars xs with
    | some v, some vs => some (v :: vs)
    | _, _ => none

def evalEntries (rt : Runtime) (vars : Scope) :
    List (Expr × Expr) → Option (List (String × Value))
  | [] => some []
  | (key, value) :: entries =>
    match key.eval rt vars, value.eval rt vars, evalEntries rt vars entries with
    | some (.text k), some v, some es => some ((k, v) :: es)
    | _, _, _ => none

end

section

variable {rt : Runtime} {vars : Scope} {x : Expr} {v : Value}

theorem evalAll_pair {y : Expr} {w : Value} (hx : x.eval rt vars = some v)
    (hy : y.eval rt vars = some w) : evalAll rt vars [x, y] = some [v, w] := by
  simp only [evalAll, hx, hy]

/-- A map has no value if one of its entries has none. -/
theorem evalEntries_eq_none {entries : List (Expr × Expr)} {entry : Expr × Expr}
    (hmem : entry ∈ entries) (h : entry.2.eval rt vars = none) :
    evalEntries rt vars entries = none := by
  induction entries with
  | nil => exact absurd hmem List.not_mem_nil
  | cons first entries ih =>
    obtain ⟨key, value⟩ := first
    unfold evalEntries
    split
    · next hvalue hentries =>
      rcases List.mem_cons.1 hmem with rfl | hmem
      · cases hvalue.symm.trans h
      · cases hentries.symm.trans (ih hmem)
    · rfl

theorem eval_compare (h : x.eval rt vars = some v) (op : Comparison) (l : Literal) :
    (compare x op (literal l)).eval rt vars = (v.compare? op l).map .bool := by
  simp only [eval, h]

theorem eval_not {b : Bool} (h : x.eval rt vars = some (.bool b)) :
    (not x).eval rt vars = some (.bool !b) := by
  simp only [eval, h]

theorem eval_len {items : Option (List Value)} (h : x.eval rt vars = some (.slice items))
    (hfree : isFree vars "len" = true) :
    (call (ident "len") [x]).eval rt vars = some (.int (items.getD []).length) := by
  simp [eval, free?, evalAll, hfree, h, Runtime.builtin, Value.length?]

theorem eval_isZero (h : x.eval rt vars = some v) (hfree : isFree vars "reflect" = true) :
    (call (select (call (select (ident "reflect") "ValueOf") [x]) "IsZero") []).eval rt vars
      = some (.bool v.isZero) := by
  simp [eval, free?, evalAll, hfree, h, Runtime.packageCall, Runtime.methodCall]

theorem eval_mapOf {type : Ty} {entries : List (Expr × Expr)} {es : List (String × Value)}
    (hfree : type.isFree vars = true) (h : evalEntries rt vars entries = some es) :
    (mapOf type entries).eval rt vars = some (.map (some es)) := by
  rw [eval, if_pos hfree, h, Option.map_some]

theorem eval_convert (h : x.eval rt vars = some v) (name : String)
    (hbuiltin : Runtime.builtin name [v] = none) :
    (call (ident name) [x]).eval rt vars
      = if isFree vars name then Value.convert? name [v] else none := by
  cases hfree : isFree vars name <;> simp [eval, free?, evalAll, hfree, h, hbuiltin]

/-- A text can be converted to any type that is declared as string. -/
theorem eval_convert_text {s : String} (h : x.eval rt vars = some (.text s)) (name : String) :
    (call (ident name) [x]).eval rt vars = if isFree vars name then some (.text s) else none := by
  have hbuiltin : Runtime.builtin name [.text s] = none := by
    unfold Runtime.builtin
    split
    · next heq =>
      cases heq
      rfl
    · rfl
  have hconvert : Value.convert? name [.text s] = some (.text s) := by
    unfold Value.convert?
    split <;> simp_all
  rw [eval_convert h name hbuiltin, hconvert]

theorem eval_sprintf (h : x.eval rt vars = some v) (hfree : isFree vars "fmt" = true) :
    (call (select (ident "fmt") "Sprintf") [string "%s", x]).eval rt vars
      = some (.text (rt.textOf v)) := by
  simp [eval, free?, evalAll, string, Literal.value?, hfree, h, Runtime.packageCall]

end

/-- What is asked for, if the expression waits for the answer to a request. -/
def request? : Expr → Option Expr
  | receive (call (select _ "Request") [request]) => some request
  | _ => none

end Expr

/-! ## Statements -/

/-- What a function does from some point on. -/
inductive Behavior
  /-- It has no meaning from here on. -/
  | stuck
  | returns (values : List Value)
  /-- It sends a request and goes on with the answer. -/
  | asks (request : Value) (next : Value → Behavior)

namespace Stmt

mutual

/-- Runs a statement; `go` is what comes after it. -/
def exec (rt : Runtime) (vars : Scope) (go : Scope → Behavior) : Stmt → Behavior
  | define [name] value =>
    match value.request? with
    | some request =>
      match request.eval rt vars with
      | some asked => .asks asked fun answer => go ((name, answer) :: vars)
      | none => .stuck
    | none =>
      match value.eval rt vars with
      | some v => go ((name, v) :: vars)
      | none => .stuck
  | define [name, "_"] (.assertType x type) =>
    match type.isFree vars, x.eval rt vars with
    | true, some v => go ((name, v.asserted type) :: vars)
    | _, _ => .stuck
  | assign (.index (.ident name) key) value =>
    match lookupName vars name, key.eval rt vars, value.eval rt vars with
    | some (.map (some entries)), some (.text k), some v =>
      go (Scope.set vars name (.map (some (setEntry entries k v))))
    | _, _, _ => .stuck
  | .return values =>
    match Expr.evalAll rt vars values with
    | some returned => .returns returned
    | none => .stuck
  | ifThen condition body =>
    match condition.eval rt vars with
    | some (.bool true) => execAll rt vars (fun inside => go (Scope.leave vars inside)) body
    | some (.bool false) => go vars
    | _ => .stuck
  | forRange key value items body =>
    match items.eval rt vars with
    | some (.map entries) =>
      (entries.getD []).foldr (fun e next outside =>
        execAll rt ((value, e.2) :: (key, .text e.1) :: outside)
          (fun inside => next (Scope.leave outside inside)) body) go vars
    | _ => .stuck
  | declare name type => if type.isFree vars then go ((name, type.zero) :: vars) else .stuck
  | comment _ => go vars
  | _ => .stuck

def execAll (rt : Runtime) (vars : Scope) (go : Scope → Behavior) : List Stmt → Behavior
  | [] => go vars
  | s :: rest => s.exec rt vars (fun after => execAll rt after go rest)

end

section

variable {rt : Runtime} {vars : Scope} {go : Scope → Behavior} {rest : List Stmt}

theorem execAll_define {name : String} {value : Expr} {v : Value} (hplain : value.request? = none)
    (h : value.eval rt vars = some v) :
    execAll rt vars go (define [name] value :: rest) = execAll rt ((name, v) :: vars) go rest := by
  simp only [execAll, exec, hplain, h]

theorem execAll_define_stuck {name : String} {value : Expr} (hplain : value.request? = none)
    (h : value.eval rt vars = none) :
    execAll rt vars go (define [name] value :: rest) = .stuck := by
  simp only [execAll, exec, hplain, h]

theorem execAll_assert {name : String} {x : Expr} {v : Value} (type : Ty)
    (h : x.eval rt vars = some v) :
    execAll rt vars go (define [name, "_"] (.assertType x type) :: rest)
      = if type.isFree vars then execAll rt ((name, v.asserted type) :: vars) go rest
        else .stuck := by
  cases hfree : type.isFree vars <;> simp [execAll, exec, h, hfree]

theorem execAll_declare (name : String) (type : Ty) :
    execAll rt vars go (declare name type :: rest)
      = if type.isFree vars then execAll rt ((name, type.zero) :: vars) go rest else .stuck := by
  simp only [execAll, exec]

theorem execAll_return {values : List Expr} {returned : List Value}
    (h : Expr.evalAll rt vars values = some returned) :
    execAll rt vars go (.return values :: rest) = .returns returned := by
  simp only [execAll, exec, h]

theorem execAll_ifThen {condition : Expr} {b : Bool} (body : List Stmt)
    (h : condition.eval rt vars = some (.bool b)) :
    execAll rt vars go (ifThen condition body :: rest)
      = bif b then execAll rt vars (fun inside => execAll rt (Scope.leave vars inside) go rest) body
        else execAll rt vars go rest := by
  cases b <;> simp only [execAll, exec, h, cond_true, cond_false]

/-- A loop does to the variables, by way of the state that they show, what its body does for one
    entry after the other. -/
theorem execAll_forRange {σ : Type} (scope : σ → Scope) (step : σ → String × Value → σ)
    {key value : String} {items : Expr} {body : List Stmt}
    {entries : Option (List (String × Value))} {s : σ}
    (hitems : items.eval rt (scope s) = some (.map entries))
    (hstep : ∀ s e (next : Scope → Behavior),
      execAll rt ((value, e.2) :: (key, .text e.1) :: scope s)
        (fun inside => next (Scope.leave (scope s) inside)) body = next (scope (step s e))) :
    execAll rt (scope s) go (forRange key value items body :: rest)
      = execAll rt (scope ((entries.getD []).foldl step s)) go rest := by
  simp only [execAll, exec, hitems]
  generalize entries.getD [] = remaining
  clear hitems
  induction remaining generalizing s with
  | nil => rfl
  | cons e remaining ih =>
    rw [List.foldr_cons, hstep, List.foldl_cons]
    exact ih

end

end Stmt

/-- What a function does that is called with its receiver and its arguments in scope. -/
def run (rt : Runtime) (vars : Scope) (body : List Stmt) : Behavior :=
  Stmt.execAll rt vars (fun _ => .returns []) body

end GoBindings.Go
