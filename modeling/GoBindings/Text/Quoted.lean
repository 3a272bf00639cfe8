import GoBindings.Text.PrintableTable
import GoBindings.Text.Ranges

set_option autoImplicit false

/-! # Quoted texts in diagnostics

A text is shown between double quotes. A character that would be invisible there, or would attach
itself to its neighbour, is shown by its code point. -/

namespace GoBindings.Text

/-- The fillers of Hangul syllables: letters that have no visible form. -/
def fillerRanges : List (Nat × Nat) := [(0x115F, 0x1160), (0x3164, 0x3164), (0xFFA0, 0xFFA0)]

/-- The halfwidth sound marks of katakana. They extend a grapheme, but they are letters with a place
    of their own, so nothing hides them. -/
def spacingMarkRanges : List (Nat × Nat) := [(0xFF9E, 0xFF9F)]

/-- A character that attaches itself to the one before it. -/
def attaches (c : Char) : Bool :=
  inRanges graphemeExtendRanges c && !inRanges spacingMarkRanges c

def showsAsNumber (c : Char) : Bool :=
  attaches c || inRanges unprintableRanges c || inRanges fillerRanges c

def quotedChar (c : Char) : List Char :=
  match c with
  | '\x00' => ['\\', '0']
  | '\t' => ['\\', 't']
  | '\r' => ['\\', 'r']
  | '\n' => ['\\', 'n']
  | '\\' => ['\\', '\\']
  | '"' => ['\\', '"']
  | c =>
    if 0x20 ≤ c.toNat && c.toNat < 0x7F then [c]
    else if showsAsNumber c then ['\\', 'u', '\x7b'] ++ Nat.toDigits 16 c.toNat ++ ['\x7d']
    else [c]

def quoted (s : String) : String :=
  String.ofList (['"'] ++ s.toList.flatMap quotedChar ++ ['"'])

end GoBindings.Text
