import GoBindings.Failure

set_option autoImplicit false

/-! # Results with notices

A computation that may fail, together with the notices it gave up to its end. What it returns does
not depend on them. -/

namespace GoBindings

structure Logged (α : Type) where
  notices : List Notice
  result : Except Failure α

namespace Logged

def ok {α : Type} (a : α) : Logged α := ⟨[], .ok a⟩

def fail {α : Type} (failure : Failure) : Logged α := ⟨[], .error failure⟩

def ofExcept {α : Type} (result : Except Failure α) : Logged α := ⟨[], result⟩

def note (notice : Notice) : Logged Unit := ⟨[notice], .ok ()⟩

/-- Goes on with the result, if there is one. -/
def andThen {α β : Type} (x : Logged α) (f : α → Logged β) : Logged β :=
  match x.result with
  | .ok a => ⟨x.notices ++ (f a).notices, (f a).result⟩
  | .error failure => ⟨x.notices, .error failure⟩

instance : Monad Logged where
  pure := ok
  bind := andThen

@[simp]
theorem result_pure {α : Type} (a : α) : (pure a : Logged α).result = .ok a := rfl

@[simp]
theorem result_fail {α : Type} (failure : Failure) :
    (fail failure : Logged α).result = .error failure := rfl

@[simp]
theorem result_note (notice : Notice) : (note notice).result = .ok () := rfl

/-- The result of two steps is the result of their results: notices do not matter. -/
@[simp]
theorem result_bind {α β : Type} (x : Logged α) (f : α → Logged β) :
    (x >>= f).result = x.result >>= fun a => (f a).result := by
  show (x.andThen f).result = _
  unfold andThen
  cases x.result <;> rfl

end Logged

end GoBindings
