import GoBindings.Failure

set_option autoImplicit false

/-! # Sources

An interface description and the path it was read from. -/

namespace GoBindings

structure Source where
  path : Path
  document : Schema.Document
deriving Repr

namespace Source

def parse (path : Path) (text : String) : Except Failure Source :=
  match Schema.Document.parse text with
  | .ok document => .ok { path, document }
  | .error error => .error (.badDescription path (.unread error))

end Source

end GoBindings
