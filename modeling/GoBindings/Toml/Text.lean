import GoBindings.Text.Hex

set_option autoImplicit false

/-! # Quoted texts and keys of a settings text

Every reader takes the characters after the opening quotes and returns the text and what follows the
closing quotes. -/

namespace GoBindings.Toml

def isBlank (c : Char) : Bool := c == ' ' || c == '\t'

def skipBlank (cs : List Char) : List Char := cs.dropWhile isBlank

/-- A character that may stand in a text or a comment: no control character but the tab. -/
def isPlain (c : Char) : Bool := c == '\t' || (0x20 ≤ c.toNat && c.toNat != 0x7F)

/-- What follows a line break. -/
def lineBreak? : List Char → Option (List Char)
  | '\n' :: rest | '\r' :: '\n' :: rest => some rest
  | _ => none

def skipLineBreak (cs : List Char) : List Char := (lineBreak? cs).getD cs

/-- The character with a number in hexadecimal digits; surrogates are no characters. -/
def hexChar? (digits : List Char) : Option Char := do
  let n ← Text.hexNumber? digits
  if n.isValidChar then some (Char.ofNat n) else none

def escaped? : Char → Option Char
  | 'b' => some '\x08'
  | 't' => some '\t'
  | 'n' => some '\n'
  | 'f' => some '\x0c'
  | 'r' => some '\r'
  | '"' => some '"'
  | '\\' => some '\\'
  | _ => none

def put (c : Char) (found : Option (List Char × List Char)) : Option (List Char × List Char) :=
  found.map fun (cs, rest) => (c :: cs, rest)

/-- A text in double quotes. -/
def basicText : List Char → Option (List Char × List Char)
  | [] => none
  | '"' :: rest => some ([], rest)
  | '\\' :: 'u' :: a :: b :: c :: d :: rest => do
    let x ← hexChar? [a, b, c, d]
    put x (basicText rest)
  | '\\' :: 'U' :: a :: b :: c :: d :: e :: f :: g :: h :: rest => do
    let x ← hexChar? [a, b, c, d, e, f, g, h]
    put x (basicText rest)
  | '\\' :: x :: rest => do
    let x ← escaped? x
    put x (basicText rest)
  | c :: rest => if isPlain c && c != '\\' then put c (basicText rest) else none

/-- A text in single quotes, without escapes. -/
def literalText : List Char → Option (List Char × List Char)
  | [] => none
  | '\'' :: rest => some ([], rest)
  | c :: rest => if isPlain c then put c (literalText rest) else none

/-- The rest of a line is blank, and there is another line. -/
def endsLine (cs : List Char) : Bool := (lineBreak? (skipBlank cs)).isSome

/-- A text of several lines in double quotes. After a backslash at the end of a line, blanks and
    line breaks are skipped; `skipping` says that this is going on. Up to two quotes may stand right
    before the closing ones. -/
def longBasicText : Bool → List Char → Option (List Char × List Char)
  | _, [] => none
  | true, ' ' :: rest | true, '\t' :: rest | true, '\n' :: rest | true, '\r' :: '\n' :: rest =>
    longBasicText true rest
  | _, '"' :: '"' :: '"' :: '"' :: '"' :: rest => some (['"', '"'], rest)
  | _, '"' :: '"' :: '"' :: '"' :: rest => some (['"'], rest)
  | _, '"' :: '"' :: '"' :: rest => some ([], rest)
  | _, '\n' :: rest | _, '\r' :: '\n' :: rest => put '\n' (longBasicText false rest)
  | _, '\\' :: 'u' :: a :: b :: c :: d :: rest => do
    let x ← hexChar? [a, b, c, d]
    put x (longBasicText false rest)
  | _, '\\' :: 'U' :: a :: b :: c :: d :: e :: f :: g :: h :: rest => do
    let x ← hexChar? [a, b, c, d, e, f, g, h]
    put x (longBasicText false rest)
  | _, '\\' :: x :: rest =>
    if endsLine (x :: rest) then
      -- `x` is a blank or the start of the line break.
      longBasicText true rest
    else do
      let x ← escaped? x
      put x (longBasicText false rest)
  | _, c :: rest => if isPlain c && c != '\\' then put c (longBasicText false rest) else none

/-- A text of several lines in single quotes. -/
def longLiteralText : List Char → Option (List Char × List Char)
  | [] => none
  | '\'' :: '\'' :: '\'' :: '\'' :: '\'' :: rest => some (['\'', '\''], rest)
  | '\'' :: '\'' :: '\'' :: '\'' :: rest => some (['\''], rest)
  | '\'' :: '\'' :: '\'' :: rest => some ([], rest)
  | '\n' :: rest | '\r' :: '\n' :: rest => put '\n' (longLiteralText rest)
  | c :: rest => if isPlain c then put c (longLiteralText rest) else none

/-- A quoted text, with its opening quotes. A line break right after three quotes is dropped. -/
def text? : List Char → Option (List Char × List Char)
  | '"' :: '"' :: '"' :: rest => longBasicText false (skipLineBreak rest)
  | '\'' :: '\'' :: '\'' :: rest => longLiteralText (skipLineBreak rest)
  | '"' :: rest => basicText rest
  | '\'' :: rest => literalText rest
  | _ => none

/-! ## Keys -/

def isBare (c : Char) : Bool := c.isAlphanum || c == '-' || c == '_'

/-- A key without dots, bare or quoted. -/
def simpleKey? : List Char → Option (String × List Char)
  | '"' :: rest => (basicText rest).map fun (cs, rest) => (String.ofList cs, rest)
  | '\'' :: rest => (literalText rest).map fun (cs, rest) => (String.ofList cs, rest)
  | cs =>
    let word := cs.takeWhile isBare
    if word.isEmpty then none else some (String.ofList word, cs.dropWhile isBare)

/-- A key of at most `count` parts with dots between them, blanks around the dots and after it. -/
def keyParts? : Nat → List Char → Option (List String × List Char)
  | 0, _ => none
  | count + 1, cs => do
    let (first, rest) ← simpleKey? (skipBlank cs)
    match skipBlank rest with
    | '.' :: rest =>
      let (more, rest) ← keyParts? count rest
      return (first :: more, rest)
    | rest => return ([first], rest)

/-- The most parts of a key. -/
def maxKeyParts : Nat := 79

def key? (cs : List Char) : Option (List String × List Char) := keyParts? maxKeyParts cs

end GoBindings.Toml
