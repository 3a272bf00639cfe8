import GoBindings.Text.Blank

set_option autoImplicit false

/-! # Documentation text

Documentation in an interface description carries reference roles and literal marks of its source
format. They are removed one after the other, each in one pass over the whole text, so what one
removal brings together is seen only by the later ones. What is left is broken into comment lines:
line breaks of the text stay, and longer lines are filled greedily. -/

namespace GoBindings.DocText

/-! ## Markup -/

/-- `replaceAfter skip old new cs` copies `cs` with every occurrence of `old` replaced by `new`,
    from left to right and without overlaps; the first `skip` characters belong to an occurrence
    that has been replaced already. -/
def replaceAfter (skip : Nat) (old new : List Char) : List Char → List Char
  | [] => []
  | c :: cs =>
    match skip with
    | skip + 1 => replaceAfter skip old new cs
    | 0 =>
      if old.isPrefixOf (c :: cs) then new ++ replaceAfter (old.length - 1) old new cs
      else c :: replaceAfter 0 old new cs

/-- The text with every occurrence of `old` replaced; `old` is not empty. -/
def replaceAll (old new : String) (cs : List Char) : List Char :=
  replaceAfter 0 old.toList new.toList cs

/-- The marks of the source format and what stands for each of them, in the order of removal. -/
def markup : List (String × String) := [
  (":rom:cls:", ""), (":rom:meth:", ""), (":rom:attr:", ""), (":rom:evt:", ""), (":term:", ""),
  ("``", "\""), ("/*", ""), ("*/", "")]

def clean (cs : List Char) : List Char :=
  markup.foldl (fun cs mark => replaceAll mark.1 mark.2 cs) cs

/-! ## Filling lines -/

/-- The most characters a comment line of several words has. -/
def width : Nat := 79

/-- Lines from the words that follow on an unfinished `line`: a word goes on the line if it fits. -/
def fillFrom (line : List Char) : List (List Char) → List (List Char)
  | [] => [line]
  | w :: ws =>
    if line.length + 1 + w.length > width then line :: fillFrom w ws
    else fillFrom (line ++ ' ' :: w) ws

/-- The words set in lines of at most `width` characters; a longer word has a line of its own. -/
def fill : List (List Char) → List (List Char)
  | [] => []
  | w :: ws => fillFrom w ws

/-- Comment lines of a documentation text. -/
def lines (raw : String) : List String :=
  (((clean raw.toList).splitOn '\n').flatMap fun line => fill (Text.words line)).map String.ofList

end GoBindings.DocText
