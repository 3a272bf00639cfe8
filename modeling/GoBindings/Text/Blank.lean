import GoBindings.Text.Ranges

set_option autoImplicit false

/-! # Blank characters, trimming and words

A text is a list of characters here. Blank means the Unicode property White_Space, so a no-break
space or an ideographic space separates words, and a zero-width space does not. -/

namespace GoBindings.Text

/-- Property White_Space. -/
def blankRanges : List (Nat × Nat) := [
  (0x9, 0xD), (0x20, 0x20), (0x85, 0x85), (0xA0, 0xA0), (0x1680, 0x1680), (0x2000, 0x200A),
  (0x2028, 0x2029), (0x202F, 0x202F), (0x205F, 0x205F), (0x3000, 0x3000)]

def isBlank (c : Char) : Bool := inRanges blankRanges c

/-- The text without the blanks at its end. -/
def trimEnd (cs : List Char) : List Char := (cs.reverse.dropWhile isBlank).reverse

/-- The text without the blanks at either end. -/
def trim (cs : List Char) : List Char := trimEnd (cs.dropWhile isBlank)

/-- The maximal runs of characters that are not blank, in order. -/
def words (cs : List Char) : List (List Char) :=
  (cs.splitOnP isBlank).filter fun w => !w.isEmpty

/-- The text before a given ending, if it has that ending. -/
def beforeEnding? (ending cs : List Char) : Option (List Char) :=
  if ending.isSuffixOf cs then some (cs.take (cs.length - ending.length)) else none

/-! ## Lengths -/

theorem length_dropWhile_le {α : Type} (p : α → Bool) (xs : List α) :
    (xs.dropWhile p).length ≤ xs.length :=
  (List.dropWhile_sublist p).length_le

theorem length_trim_le (cs : List Char) : (trim cs).length ≤ cs.length := by
  unfold trim trimEnd
  rw [List.length_reverse]
  calc ((cs.dropWhile isBlank).reverse.dropWhile isBlank).length
      ≤ (cs.dropWhile isBlank).reverse.length := length_dropWhile_le _ _
    _ = (cs.dropWhile isBlank).length := List.length_reverse
    _ ≤ cs.length := length_dropWhile_le _ _

theorem length_lt_of_beforeEnding? {ending cs front : List Char} (nonempty : ending ≠ [])
    (h : beforeEnding? ending cs = some front) : front.length < cs.length := by
  unfold beforeEnding? at h
  split at h
  · next isSuffix =>
    obtain rfl := Option.some.inj h
    have := (List.isSuffixOf_iff_suffix.mp isSuffix).length_le
    have := List.length_pos_iff.mpr nonempty
    rw [List.length_take]
    omega
  · exact nomatch h

end GoBindings.Text
