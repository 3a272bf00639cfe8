import GoBindings.Json.Token

set_option autoImplicit false

/-! # The tree of a data text, as far as it can be read

Who reads a document finds its first fault in document order, be it a fault of the notation or a
value of the wrong kind. So the notation is not judged first: a text always has a tree, in which the
leaf `fault` stands where the notation breaks off, and nothing follows that leaf. Tokens are read
one by one, with a stack of the lists and objects that are still open. -/

namespace GoBindings.Json

inductive Tree
  | fault
  | null
  | boolean (b : Bool)
  | number (n : Option Number)
  | text (s : Option String)
  | list (items : List Tree)
  /-- Members in order. A key is none if it is unreadable; where no key can be read at all the
      member is `(none, fault)`. -/
  | object (members : List (Option String × Tree))
deriving Repr

abbrev Member := Option String × Tree

/-- A list or an object around the value that is being read; what it has so far, last first. -/
inductive Frame
  | list (items : List Tree)
  | object (members : List Member) (key : Option String)
deriving Repr

/-- What may come next. -/
inductive Reader
  /-- A value. -/
  | value (stack : List Frame)
  /-- A first item, or the end of the list. -/
  | listStart (stack : List Frame)
  /-- A comma, or the end of the list. -/
  | listNext (items : List Tree) (stack : List Frame)
  /-- A first key, or the end of the object. -/
  | objectStart (stack : List Frame)
  /-- A key. -/
  | objectKey (members : List Member) (stack : List Frame)
  | objectColon (members : List Member) (key : Option String) (stack : List Frame)
  /-- A comma, or the end of the object. -/
  | objectNext (members : List Member) (stack : List Frame)
  /-- Nothing: the value is complete. -/
  | complete (tree : Tree)
  /-- Nothing matters any more. -/
  | broken (tree : Tree)
deriving Repr

namespace Frame

/-- The frame with its last value, closed. -/
def close (last : Tree) : Frame → Tree
  | list items => .list (items.reverse ++ [last])
  | object members key => .object (members.reverse ++ [(key, last)])

end Frame

namespace Reader

/-- A value has been read inside these frames. -/
def put (tree : Tree) : List Frame → Reader
  | [] => complete tree
  | .list items :: stack => listNext (tree :: items) stack
  | .object members key :: stack => objectNext ((key, tree) :: members) stack

/-- The tree of a text that breaks off inside these frames, right after `last`. -/
def cut (last : Tree) (stack : List Frame) : Tree := stack.foldl Frame.close last

/-- The tree if what has to come next does not come. -/
def abort : Reader → Tree
  | value stack => cut .fault stack
  | listStart stack => cut (Frame.close .fault (.list [])) stack
  | listNext items stack => cut (Frame.close .fault (.list items)) stack
  | objectStart stack => cut (Frame.close .fault (.object [] none)) stack
  | objectKey members stack => cut (Frame.close .fault (.object members none)) stack
  | objectColon members key stack => cut (Frame.close .fault (.object members key)) stack
  | objectNext members stack => cut (Frame.close .fault (.object members none)) stack
  | complete tree => tree
  | broken tree => tree

/-- Reads a token where a value has to stand. -/
def startValue (stack : List Frame) : Token → Reader
  | .null => put .null stack
  | .boolean b => put (.boolean b) stack
  | .number n => put (.number n) stack
  | .text s => put (.text s) stack
  | .openList => listStart stack
  | .openObject => objectStart stack
  | _ => broken (value stack).abort

def step (r : Reader) (t : Token) : Reader :=
  match r, t with
  | value stack, t => startValue stack t
  | listStart stack, .closeList => put (.list []) stack
  | listStart stack, t => startValue (.list [] :: stack) t
  | listNext items stack, .comma => value (.list items :: stack)
  | listNext items stack, .closeList => put (.list items.reverse) stack
  | objectStart stack, .closeObject => put (.object []) stack
  | objectStart stack, .text k => objectColon [] k stack
  | objectKey members stack, .text k => objectColon members k stack
  | objectColon members k stack, .colon => value (.object members k :: stack)
  | objectNext members stack, .comma => objectKey members stack
  | objectNext members stack, .closeObject => put (.object members.reverse) stack
  | r, _ => broken r.abort

/-- The tree, and whether the text holds one value and nothing else. -/
def finish : Reader → Tree × Bool
  | complete tree => (tree, true)
  | r => (r.abort, false)

end Reader

/-- The tree of a text, and whether the text is one value of the notation and nothing else. -/
def read (cs : List Char) : Tree × Bool :=
  ((tokens cs).foldl Reader.step (.value [])).finish

namespace Tree

/-! ## Trees without a fault -/

mutual

/-- No fault stands in the tree; values that cannot be represented are no faults. -/
def isIntact : Tree → Bool
  | fault => false
  | list items => allIntact items
  | object members => membersIntact members
  | _ => true

def allIntact : List Tree → Bool
  | [] => true
  | t :: ts => t.isIntact && allIntact ts

def membersIntact : List (Option String × Tree) → Bool
  | [] => true
  | (_, t) :: ms => t.isIntact && membersIntact ms

end

end Tree

end GoBindings.Json
