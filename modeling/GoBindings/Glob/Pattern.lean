import GoBindings.Path

set_option autoImplicit false

/-! # Glob patterns

`?` stands for one character, `*` for any number of them, `[…]` and `[!…]` for one character of a
class or outside of it, and `**`, alone between separators, for any number of directories. A pattern
is checked as a whole and then step by step, so a class that holds a separator passes the first
check and fails the second. -/

namespace GoBindings.Glob

/-! ## Tokens -/

/-- Characters from `first` to `last`. -/
structure CharRange where
  first : Char
  last : Char
deriving DecidableEq, Repr

inductive Token
  | char (c : Char)
  | anyChar
  | anySequence
  | anyDirectories
  | oneOf (ranges : List CharRange)
  | noneOf (ranges : List CharRange)
deriving DecidableEq, Repr

inductive PatternFault
  | badClass
  | badStars
  | badRecursion
deriving DecidableEq, Repr

/-- A fault and the position near which it was found, counted in characters. -/
structure PatternError where
  position : Nat
  fault : PatternFault
deriving DecidableEq, Repr

namespace PatternFault

def message : PatternFault → String
  | badClass => "invalid range pattern"
  | badStars => "wildcards are either regular `*` or recursive `**`"
  | badRecursion => "recursive wildcards must form a single path component"

end PatternFault

namespace PatternError

def message (e : PatternError) : String :=
  s!"Pattern syntax error near position {e.position}: " ++ e.fault.message

end PatternError

/-- The ranges of a class: `a-z` is a range, any other character stands for itself. -/
def ranges : List Char → List CharRange
  | a :: '-' :: b :: cs => ⟨a, b⟩ :: ranges cs
  | c :: cs => ⟨c, c⟩ :: ranges cs
  | [] => []

/-- The characters of a class up to its closing bracket, which does not close it as its first
    character, and what follows. -/
def classBody? : List Char → Option (List Char × List Char)
  | [] => none
  | first :: cs =>
    match cs.dropWhile (· != ']') with
    | _ :: rest => some (first :: cs.takeWhile (· != ']'), rest)
    | [] => none

/-- The class after an opening bracket, and what follows. -/
def class? : List Char → Option (Token × List Char)
  | '!' :: cs => (classBody? cs).map fun (body, rest) => (.noneOf (ranges body), rest)
  | cs => (classBody? cs).map fun (body, rest) => (.oneOf (ranges body), rest)

theorem length_classBody?_lt {cs body rest : List Char} (h : classBody? cs = some (body, rest)) :
    rest.length < cs.length := by
  unfold classBody? at h
  split at h
  · simp at h
  · next first cs =>
    split at h
    · next c tail drop =>
      obtain ⟨-, rfl⟩ := Prod.mk.inj (Option.some.inj h)
      have := (List.dropWhile_sublist (· != ']') (l := cs)).length_le
      rw [drop] at this
      simp only [List.length_cons] at this ⊢
      omega
    · simp at h

theorem length_class?_lt {cs rest : List Char} {t : Token} (h : class? cs = some (t, rest)) :
    rest.length < cs.length := by
  unfold class? at h
  split at h
  all_goals
    rw [Option.map_eq_some_iff] at h
    obtain ⟨⟨_, _⟩, found, h⟩ := h
    obtain ⟨-, rfl⟩ := Prod.mk.inj h
  · exact Nat.lt_succ_of_lt (length_classBody?_lt found)
  · exact length_classBody?_lt found

/-- The tokens of the end `cs` of a pattern with `length` characters; `before` is the character in
    front of it. -/
def scanFrom (length : Nat) (before : Option Char) (cs : List Char) :
    Except PatternError (List Token) :=
  match cs with
  | [] => .ok []
  | '?' :: cs => (.anyChar :: ·) <$> scanFrom length (some '?') cs
  | '*' :: '*' :: '*' :: cs => .error ⟨length - cs.length - 1, .badStars⟩
  | '*' :: '*' :: cs =>
    if before = none || before = some '/' then
      match cs with
      | [] => .ok [.anyDirectories]
      | '/' :: cs => (.anyDirectories :: ·) <$> scanFrom length (some '/') cs
      | _ => .error ⟨length - cs.length, .badRecursion⟩
    else .error ⟨length - cs.length - 3, .badRecursion⟩
  | '*' :: cs => (.anySequence :: ·) <$> scanFrom length (some '*') cs
  | '[' :: cs =>
    match _h : class? cs with
    | some (token, rest) => (token :: ·) <$> scanFrom length (some ']') rest
    | none => .error ⟨length - cs.length - 1, .badClass⟩
  | c :: cs => (.char c :: ·) <$> scanFrom length (some c) cs
termination_by cs.length
decreasing_by
  all_goals simp_wf
  all_goals try omega
  have := length_class?_lt _h
  omega

def scan (cs : List Char) : Except PatternError (List Token) := scanFrom cs.length none cs

/-! ## Matching -/

namespace CharRange

def contains (r : CharRange) (c : Char) : Bool := r.first ≤ c && c ≤ r.last

end CharRange

namespace Token

/-- The token stands for this one character. -/
def takes (c : Char) : Token → Bool
  | char d => c == d
  | anyChar => true
  | oneOf ranges => ranges.any (·.contains c)
  | noneOf ranges => !ranges.any (·.contains c)
  | anySequence | anyDirectories => false

end Token

/-- How an attempt to spell out tokens ends. -/
inductive Attempt
  | matched
  | mismatched
  /-- There were no characters left for the next token. -/
  | tooShort
deriving DecidableEq, Repr

/-- The first attempt, over the ends of a list from the longest on, that is no mismatch. -/
def firstAttempt (attempt : List Char → Attempt) : List Char → Attempt
  | [] => attempt []
  | c :: cs =>
    match attempt (c :: cs) with
    | .mismatched => firstAttempt attempt cs
    | outcome => outcome

/-- Spells out tokens. Where the characters run out behind a `*`, all of its choices have been tried,
    and fewer characters would not be enough either; so a `*` before it need not choose again, and
    the time stays within the product of the two lengths. -/
def attempt : List Token → List Char → Attempt
  | [], cs => if cs.isEmpty then .matched else .mismatched
  | .anySequence :: ts, cs => firstAttempt (attempt ts) cs
  | _ :: _, [] => .tooShort
  | t :: ts, c :: cs => if t.takes c then attempt ts cs else .mismatched

/-- A name spells out the tokens. -/
def spells (tokens : List Token) (name : List Char) : Bool := attempt tokens name = .matched

/-! ## Steps of a path -/

inductive Step
  /-- Any number of directories. -/
  | descend
  | name (tokens : List Token)
deriving DecidableEq, Repr

namespace Step

def ofTokens (tokens : List Token) : Step :=
  if tokens = [.anyDirectories] then descend else name tokens

def literalChars? : List Token → Option (List Char)
  | [] => some []
  | .char c :: ts => (c :: ·) <$> literalChars? ts
  | _ :: _ => none

end Step

/-- A pattern for paths. -/
structure Pattern where
  absolute : Bool
  steps : List Step
  /-- The pattern ends with a separator. -/
  directoriesOnly : Bool
deriving DecidableEq, Repr

namespace Pattern

/-- What stands between separators; a separator at the end starts no new piece. -/
def pieces (cs : List Char) : List (List Char) :=
  let all := cs.splitOn '/'
  if all.getLast? = some [] then all.dropLast else all

/-- A run of `**` means the same as one of them. -/
def collapse : List Step → List Step
  | .descend :: .descend :: steps => collapse (.descend :: steps)
  | step :: steps => step :: collapse steps
  | [] => []

def parse (text : String) : Except PatternError Pattern := do
  let cs := text.toList
  let _ ← scan cs
  let absolute := cs.head? == some '/'
  let body := if absolute then cs.drop 1 else cs
  let texts := if body.isEmpty then [[]] else pieces body
  let steps ← texts.mapM fun piece => Step.ofTokens <$> scan piece
  return { absolute, steps := collapse steps, directoriesOnly := cs.getLast? == some '/' }

end Pattern

end GoBindings.Glob
