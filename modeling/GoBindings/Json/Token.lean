import GoBindings.Json.Number
import GoBindings.Text.Hex

set_option autoImplicit false

/-! # Tokens of a data text

A text is cut into tokens, from left to right; where no token can be read the list ends with
`fault`. A number out of range and a text with half of a surrogate pair are tokens all the same,
because such a value may stand where nobody asks for it. -/

namespace GoBindings.Json

inductive Token
  | openList
  | closeList
  | openObject
  | closeObject
  | comma
  | colon
  | null
  | boolean (b : Bool)
  /-- A number, or none if it is out of range. -/
  | number (n : Option Number)
  /-- A text, or none if it holds an unpaired surrogate. -/
  | text (s : Option String)
  | fault
deriving Repr

/-! ## Texts -/

/-- What stands for a part of a text: a character, or a UTF-16 unit given by its number. -/
inductive Piece
  | char (c : Char)
  | unit (n : Nat)
deriving DecidableEq, Repr

/-- The character that a one-letter escape stands for. -/
def escaped? : Char → Option Char
  | '"' => some '"'
  | '\\' => some '\\'
  | '/' => some '/'
  | 'b' => some '\x08'
  | 'f' => some '\x0c'
  | 'n' => some '\n'
  | 'r' => some '\r'
  | 't' => some '\t'
  | _ => none

/-- The pieces up to the closing quote, and what follows it. -/
def pieces : List Char → Option (List Piece × List Char)
  | [] => none
  | '"' :: rest => some ([], rest)
  | '\\' :: 'u' :: a :: b :: c :: d :: rest => do
    let n ← Text.hexNumber? [a, b, c, d]
    let (ps, rest) ← pieces rest
    return (.unit n :: ps, rest)
  | '\\' :: e :: rest => do
    let c ← escaped? e
    let (ps, rest) ← pieces rest
    return (.char c :: ps, rest)
  | c :: rest =>
    if c.toNat < 0x20 || c == '\\' then none
    else do
      let (ps, rest) ← pieces rest
      return (.char c :: ps, rest)

def isHighSurrogate (n : Nat) : Bool := 0xD800 ≤ n && n < 0xDC00

def isLowSurrogate (n : Nat) : Bool := 0xDC00 ≤ n && n < 0xE000

/-- The characters of a text; a high surrogate needs a low one right after it. -/
def joined : List Piece → Option (List Char)
  | [] => some []
  | .char c :: ps => (c :: ·) <$> joined ps
  | .unit n :: .unit m :: ps =>
    if isHighSurrogate n then
      if isLowSurrogate m then
        (Char.ofNat (0x10000 + (n - 0xD800) * 0x400 + (m - 0xDC00)) :: ·) <$> joined ps
      else none
    else if isLowSurrogate n then none
    else (Char.ofNat n :: ·) <$> joined (.unit m :: ps)
  | .unit n :: ps =>
    if isHighSurrogate n || isLowSurrogate n then none else (Char.ofNat n :: ·) <$> joined ps

/-! ## Numbers -/

/-- A nonempty run of decimal digits, and what follows it. -/
def digits? (cs : List Char) : Option (List Nat × List Char) :=
  let run := cs.takeWhile Char.isDigit
  if run.isEmpty then none
  else some (run.map fun c => c.toNat - '0'.toNat, cs.dropWhile Char.isDigit)

/-- The digits before the point: zero alone, or a run that does not start with zero. -/
def wholePart? (cs : List Char) : Option (List Nat × List Char) :=
  match digits? cs with
  | some (0 :: _ :: _, _) | none => none
  | some found => some found

/-- The digits after a point, if there is one. -/
def fractionPart? : List Char → Option (List Nat × List Char)
  | '.' :: rest => digits? rest
  | rest => some ([], rest)

def unsignedExponent? (cs : List Char) : Option (Int × List Char) :=
  (digits? cs).map fun (ds, rest) => (((ds.foldl (fun n d => n * 10 + d) 0 : Nat) : Int), rest)

/-- The digits of an exponent with its sign. -/
def exponent? : List Char → Option (Int × List Char)
  | '-' :: rest => (unsignedExponent? rest).map fun (e, rest) => (-e, rest)
  | '+' :: rest => unsignedExponent? rest
  | rest => unsignedExponent? rest

/-- The exponent, if there is one. -/
def exponentPart? : List Char → Option (Option Int × List Char)
  | 'e' :: rest | 'E' :: rest => (exponent? rest).map fun (e, rest) => (some e, rest)
  | rest => some (none, rest)

def unsignedNumber? (negative : Bool) (cs : List Char) : Option (NumberText × List Char) := do
  let (whole, rest) ← wholePart? cs
  let (fraction, rest) ← fractionPart? rest
  let (exponent, rest) ← exponentPart? rest
  return ({ negative, whole, fraction, exponent }, rest)

/-! ## The list of tokens -/

def isSpace (c : Char) : Bool := c == ' ' || c == '\n' || c == '\t' || c == '\r'

/-- A fixed word whose first letter has been read. -/
def word? (token : Token) (letters : List Char) (rest : List Char) : Option (Token × List Char) :=
  if letters.isPrefixOf rest then some (token, rest.drop letters.length) else none

/-- The token that starts with `c`, and what follows it. -/
def token? (c : Char) (rest : List Char) : Option (Token × List Char) :=
  match c with
  | '[' => some (.openList, rest)
  | ']' => some (.closeList, rest)
  | '\x7b' => some (.openObject, rest)
  | '\x7d' => some (.closeObject, rest)
  | ',' => some (.comma, rest)
  | ':' => some (.colon, rest)
  | 'n' => word? .null ['u', 'l', 'l'] rest
  | 't' => word? (.boolean true) ['r', 'u', 'e'] rest
  | 'f' => word? (.boolean false) ['a', 'l', 's', 'e'] rest
  | '"' => (pieces rest).map fun (ps, rest) => (.text ((joined ps).map String.ofList), rest)
  | '-' => (unsignedNumber? true rest).map fun (t, rest) => (.number t.value, rest)
  | c => (unsignedNumber? false (c :: rest)).map fun (t, rest) => (.number t.value, rest)

/-! ## Lengths: every token takes at least one character -/

theorem length_pieces_le {cs rest : List Char} {ps : List Piece} (h : pieces cs = some (ps, rest)) :
    rest.length ≤ cs.length := by
  fun_induction pieces cs generalizing ps rest with
  | case1 => simp at h
  | case2 => simp_all
  | case3 a b c d tail ih =>
    simp only [Option.bind_eq_bind, Option.bind_eq_some_iff] at h
    obtain ⟨_, _, ⟨_, _⟩, h', h⟩ := h
    obtain ⟨-, rfl⟩ := Prod.mk.inj (Option.some.inj h)
    have := ih h'
    simp only [List.length_cons]
    omega
  | case4 e tail _ ih =>
    simp only [Option.bind_eq_bind, Option.bind_eq_some_iff] at h
    obtain ⟨_, _, ⟨_, _⟩, h', h⟩ := h
    obtain ⟨-, rfl⟩ := Prod.mk.inj (Option.some.inj h)
    have := ih h'
    simp only [List.length_cons]
    omega
  | case5 => simp at h
  | case6 c tail _ _ _ _ ih =>
    simp only [Option.bind_eq_bind, Option.bind_eq_some_iff] at h
    obtain ⟨⟨_, _⟩, h', h⟩ := h
    obtain ⟨-, rfl⟩ := Prod.mk.inj (Option.some.inj h)
    have := ih h'
    simp only [List.length_cons]
    omega

theorem length_digits?_lt {cs rest : List Char} {ds : List Nat} (h : digits? cs = some (ds, rest)) :
    rest.length < cs.length := by
  simp only [digits?] at h
  split at h
  · simp at h
  · next nonempty =>
    obtain ⟨-, rfl⟩ := Prod.mk.inj (Option.some.inj h)
    have split : (cs.takeWhile Char.isDigit).length + (cs.dropWhile Char.isDigit).length
        = cs.length := by
      rw [← List.length_append, List.takeWhile_append_dropWhile]
    have : 0 < (cs.takeWhile Char.isDigit).length := by
      rw [List.length_pos_iff]
      simpa using nonempty
    omega

theorem length_wholePart?_lt {cs rest : List Char} {ds : List Nat}
    (h : wholePart? cs = some (ds, rest)) : rest.length < cs.length := by
  unfold wholePart? at h
  split at h
  · simp at h
  · simp at h
  · next found =>
    exact length_digits?_lt (found.trans h)

theorem length_fractionPart?_le {cs rest : List Char} {ds : List Nat}
    (h : fractionPart? cs = some (ds, rest)) : rest.length ≤ cs.length := by
  unfold fractionPart? at h
  split at h
  · have := length_digits?_lt h
    simp only [List.length_cons]
    omega
  · obtain ⟨-, rfl⟩ := Prod.mk.inj (Option.some.inj h)
    exact Nat.le_refl _

theorem length_unsignedExponent?_lt {cs rest : List Char} {e : Int}
    (h : unsignedExponent? cs = some (e, rest)) : rest.length < cs.length := by
  unfold unsignedExponent? at h
  rw [Option.map_eq_some_iff] at h
  obtain ⟨⟨_, _⟩, found, h⟩ := h
  obtain ⟨-, rfl⟩ := Prod.mk.inj h
  exact length_digits?_lt found

theorem length_exponent?_lt {cs rest : List Char} {e : Int} (h : exponent? cs = some (e, rest)) :
    rest.length < cs.length := by
  unfold exponent? at h
  split at h
  · rw [Option.map_eq_some_iff] at h
    obtain ⟨⟨_, _⟩, found, h⟩ := h
    obtain ⟨-, rfl⟩ := Prod.mk.inj h
    have := length_unsignedExponent?_lt found
    simp only [List.length_cons]
    omega
  · have := length_unsignedExponent?_lt h
    simp only [List.length_cons]
    omega
  · exact length_unsignedExponent?_lt h

theorem length_exponentPart?_le {cs rest : List Char} {e : Option Int}
    (h : exponentPart? cs = some (e, rest)) : rest.length ≤ cs.length := by
  unfold exponentPart? at h
  split at h
  case h_3 =>
    obtain ⟨-, rfl⟩ := Prod.mk.inj (Option.some.inj h)
    exact Nat.le_refl _
  all_goals
    rw [Option.map_eq_some_iff] at h
    obtain ⟨⟨_, _⟩, found, h⟩ := h
    obtain ⟨-, rfl⟩ := Prod.mk.inj h
    have := length_exponent?_lt found
    simp only [List.length_cons]
    omega

theorem length_unsignedNumber?_lt {negative : Bool} {cs rest : List Char} {t : NumberText}
    (h : unsignedNumber? negative cs = some (t, rest)) : rest.length < cs.length := by
  unfold unsignedNumber? at h
  simp only [Option.bind_eq_bind, Option.bind_eq_some_iff] at h
  obtain ⟨⟨_, _⟩, whole, ⟨_, _⟩, fraction, ⟨_, _⟩, exponent, h⟩ := h
  obtain ⟨-, rfl⟩ := Prod.mk.inj (Option.some.inj h)
  exact Nat.lt_of_le_of_lt (length_exponentPart?_le exponent)
    (Nat.lt_of_le_of_lt (length_fractionPart?_le fraction) (length_wholePart?_lt whole))

theorem length_word?_le {token found : Token} {letters cs rest : List Char}
    (h : word? token letters cs = some (found, rest)) : rest.length ≤ cs.length := by
  unfold word? at h
  split at h
  · obtain ⟨-, rfl⟩ := Prod.mk.inj (Option.some.inj h)
    rw [List.length_drop]
    omega
  · simp at h

theorem length_token?_le {c : Char} {cs rest : List Char} {t : Token}
    (h : token? c cs = some (t, rest)) : rest.length ≤ cs.length := by
  unfold token? at h
  split at h
  case h_7 | h_8 | h_9 => exact length_word?_le h
  case h_10 =>
    rw [Option.map_eq_some_iff] at h
    obtain ⟨⟨_, _⟩, found, h⟩ := h
    obtain ⟨-, rfl⟩ := Prod.mk.inj h
    exact length_pieces_le found
  case h_11 =>
    rw [Option.map_eq_some_iff] at h
    obtain ⟨⟨_, _⟩, found, h⟩ := h
    obtain ⟨-, rfl⟩ := Prod.mk.inj h
    have := length_unsignedNumber?_lt found
    omega
  case h_12 =>
    rw [Option.map_eq_some_iff] at h
    obtain ⟨⟨_, _⟩, found, h⟩ := h
    obtain ⟨-, rfl⟩ := Prod.mk.inj h
    have := length_unsignedNumber?_lt found
    simp only [List.length_cons] at this
    omega
  all_goals
    obtain ⟨-, rfl⟩ := Prod.mk.inj (Option.some.inj h)
    exact Nat.le_refl _

/-- The tokens of a text. -/
def tokens (cs : List Char) : List Token :=
  match cs with
  | [] => []
  | c :: cs =>
    if isSpace c then tokens cs
    else
      match _h : token? c cs with
      | some (t, rest) => t :: tokens rest
      | none => [.fault]
termination_by cs.length
decreasing_by
  · simp
  · have := length_token?_le _h
    simp only [List.length_cons]
    omega

end GoBindings.Json
