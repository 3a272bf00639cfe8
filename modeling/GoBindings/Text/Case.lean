import GoBindings.Text.CaseTable
import GoBindings.Text.Ranges

set_option autoImplicit false

/-! # Upper and lower case

Full case mapping: a character may become several (`ß` becomes `SS`), and one rule looks at the
context, a capital sigma at the end of a word becomes `ς`. ASCII letters never reach the tables. -/

namespace GoBindings.Text

def upperChar (c : Char) : List Char :=
  if c.toNat < 0x80 then [c.toUpper]
  else (CaseRun.image upperRuns upperExpansions c.toNat).map Char.ofNat

def upper (cs : List Char) : List Char := cs.flatMap upperChar

/-- Only the first character in upper case. -/
def upperFirst : List Char → List Char
  | [] => []
  | c :: cs => upperChar c ++ cs

def lowerChar (c : Char) : List Char :=
  if c.toNat < 0x80 then [c.toLower]
  else (CaseRun.image lowerRuns lowerExpansions c.toNat).map Char.ofNat

/-- Whether a cased character comes first, case-ignorable ones left aside. -/
def startsCased (cs : List Char) : Bool :=
  match cs.dropWhile (inRanges caseIgnorableRanges) with
  | [] => false
  | c :: _ => inRanges casedRanges c

/-- Lower case of a text that follows `before`, which is given last character first. -/
def lowerAfter (before : List Char) : List Char → List Char
  | [] => []
  | c :: cs =>
    let image :=
      if c = 'Σ' then [if startsCased before && !startsCased cs then 'ς' else 'σ']
      else lowerChar c
    image ++ lowerAfter (c :: before) cs

def lower (cs : List Char) : List Char := lowerAfter [] cs

end GoBindings.Text
