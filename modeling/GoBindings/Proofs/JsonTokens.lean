import GoBindings.Json.Token
import Mathlib.Data.List.Basic

set_option autoImplicit false

/-! # The words of data texts

The notation is given here without a reader: a word spells a token (`Spelled`), and a text is a row
of words with blanks between them (`Lexed`). A number shows its end only by what follows it, so the
tokens of a row are found again if no two numbers follow each other (`tokens_of_lexed`). The other
way round, a text that has tokens and no fault is such a row (`lexed_tokens`). -/

namespace GoBindings.Json

/-! ## Words for texts -/

/-- How the pieces of a text are written between its quotes. -/
inductive PiecesWritten : List Piece → List Char → Prop
  | nil : PiecesWritten [] []
  | plain {c : Char} {ps : List Piece} {w : List Char} (hc : ¬ c.toNat < 0x20) (hquote : c ≠ '"')
      (hslash : c ≠ '\\') (h : PiecesWritten ps w) : PiecesWritten (.char c :: ps) (c :: w)
  | escape {e c : Char} {ps : List Piece} {w : List Char} (he : escaped? e = some c)
      (h : PiecesWritten ps w) : PiecesWritten (.char c :: ps) ('\\' :: e :: w)
  | unit {a b c d : Char} {n : Nat} {ps : List Piece} {w : List Char}
      (hn : Text.hexNumber? [a, b, c, d] = some n) (h : PiecesWritten ps w) :
      PiecesWritten (.unit n :: ps) ('\\' :: 'u' :: a :: b :: c :: d :: w)

theorem pieces_eq_some {ps : List Piece} {w : List Char} (h : PiecesWritten ps w)
    (rest : List Char) : pieces (w ++ '"' :: rest) = some (ps, rest) := by
  induction h with
  | nil => rw [List.nil_append, pieces]
  | @plain c ps w hc hquote hslash _ ih =>
    rw [List.cons_append]
    unfold pieces
    split
    · next heq => exact absurd heq (by simp)
    · next heq => exact absurd (List.cons.inj heq).1 hquote
    · next heq => exact absurd (List.cons.inj heq).1 hslash
    · next heq => exact absurd (List.cons.inj heq).1 hslash
    · next heq =>
      obtain ⟨rfl, rfl⟩ := List.cons.inj heq
      simp [hc, hslash, ih]
  | @escape e c ps w he _ ih =>
    have hu : e ≠ 'u' := by
      rintro rfl
      exact absurd he nofun
    rw [List.cons_append, List.cons_append]
    unfold pieces
    split
    · next heq => exact absurd heq (by simp)
    · next heq => exact absurd (List.cons.inj heq).1 (by decide)
    · next heq => exact absurd (List.cons.inj (List.cons.inj heq).2).1 hu
    · next heq =>
      obtain ⟨-, htail⟩ := List.cons.inj heq
      obtain ⟨rfl, rfl⟩ := List.cons.inj htail
      simp [he, ih]
    · next hnot heq =>
      obtain ⟨rfl, rfl⟩ := List.cons.inj heq
      exact (hnot e _ rfl rfl).elim
  | @unit a b c d n ps w hn _ ih =>
    simp only [List.cons_append]
    rw [pieces]
    simp [hn, ih]

theorem exists_piecesWritten {cs rest : List Char} {ps : List Piece}
    (h : pieces cs = some (ps, rest)) : ∃ w, PiecesWritten ps w ∧ cs = w ++ '"' :: rest := by
  fun_induction pieces cs generalizing ps rest with
  | case1 => exact absurd h (by simp)
  | case2 tail =>
    obtain ⟨rfl, rfl⟩ := Prod.mk.inj (Option.some.inj h)
    exact ⟨[], .nil, rfl⟩
  | case3 a b c d tail ih =>
    simp only [Option.bind_eq_bind, Option.bind_eq_some_iff] at h
    obtain ⟨n, hn, ⟨_, _⟩, htail, h⟩ := h
    obtain ⟨rfl, rfl⟩ := Prod.mk.inj (Option.some.inj h)
    obtain ⟨w, hw, rfl⟩ := ih htail
    exact ⟨_, .unit hn hw, rfl⟩
  | case4 e tail _ ih =>
    simp only [Option.bind_eq_bind, Option.bind_eq_some_iff] at h
    obtain ⟨c, hc, ⟨_, _⟩, htail, h⟩ := h
    obtain ⟨rfl, rfl⟩ := Prod.mk.inj (Option.some.inj h)
    obtain ⟨w, hw, rfl⟩ := ih htail
    exact ⟨_, .escape hc hw, rfl⟩
  | case5 => exact absurd h (by simp)
  | case6 c tail hquote _ _ hplain ih =>
    simp only [Option.bind_eq_bind, Option.bind_eq_some_iff] at h
    obtain ⟨⟨_, _⟩, htail, h⟩ := h
    obtain ⟨rfl, rfl⟩ := Prod.mk.inj (Option.some.inj h)
    obtain ⟨w, hw, rfl⟩ := ih htail
    simp only [Bool.or_eq_true, decide_eq_true_eq, beq_iff_eq, not_or] at hplain
    exact ⟨_, .plain hplain.1 hquote hplain.2 hw, rfl⟩

/-! ## Words for numbers -/

def DigitsWritten (ds : List Nat) (w : List Char) : Prop :=
  w ≠ [] ∧ (∀ c ∈ w, c.isDigit = true) ∧ ds = w.map fun c => c.toNat - '0'.toNat

/-- The number that decimal digits spell. -/
def decimal (ds : List Nat) : Int := ((ds.foldl (fun n d => n * 10 + d) 0 : Nat) : Int)

inductive FractionWritten : List Nat → List Char → Prop
  | none : FractionWritten [] []
  | point {ds : List Nat} {w : List Char} (h : DigitsWritten ds w) : FractionWritten ds ('.' :: w)

inductive SignedWritten : Int → List Char → Prop
  | plain {ds : List Nat} {w : List Char} (h : DigitsWritten ds w) : SignedWritten (decimal ds) w
  | plus {ds : List Nat} {w : List Char} (h : DigitsWritten ds w) :
      SignedWritten (decimal ds) ('+' :: w)
  | minus {ds : List Nat} {w : List Char} (h : DigitsWritten ds w) :
      SignedWritten (-decimal ds) ('-' :: w)

inductive ExponentWritten : Option Int → List Char → Prop
  | none : ExponentWritten none []
  | mark {c : Char} {e : Int} {w : List Char} (hc : c = 'e' ∨ c = 'E') (h : SignedWritten e w) :
      ExponentWritten (some e) (c :: w)

/-- A number without its sign. Only a zero that stands alone starts with a zero. -/
inductive UnsignedWritten (n : NumberText) : List Char → Prop
  | mk {whole fraction exponent : List Char} (hwhole : DigitsWritten n.whole whole)
      (hzero : ∀ d ds, n.whole ≠ 0 :: d :: ds) (hfraction : FractionWritten n.fraction fraction)
      (hexponent : ExponentWritten n.exponent exponent) :
      UnsignedWritten n (whole ++ (fraction ++ exponent))

/-- No number that ends before the text could go on with it. -/
def EndsNumber (rest : List Char) : Prop :=
  ∀ c ∈ rest.head?, c.isDigit = false ∧ c ≠ '.' ∧ c ≠ 'e' ∧ c ≠ 'E'

theorem digits?_eq_some {ds : List Nat} {w rest : List Char} (h : DigitsWritten ds w)
    (hrest : ∀ c ∈ rest.head?, c.isDigit = false) : digits? (w ++ rest) = some (ds, rest) := by
  obtain ⟨hne, hdigits, rfl⟩ := h
  have hstop : rest.takeWhile Char.isDigit = [] ∧ rest.dropWhile Char.isDigit = rest := by
    cases rest with
    | nil => exact ⟨rfl, rfl⟩
    | cons c rest =>
      have hc := hrest c rfl
      simp [hc]
  have htake : (w ++ rest).takeWhile Char.isDigit = w := by
    rw [List.takeWhile_append_of_pos hdigits, hstop.1, List.append_nil]
  have hdrop : (w ++ rest).dropWhile Char.isDigit = rest := by
    rw [List.dropWhile_append_of_pos hdigits, hstop.2]
  simp [digits?, htake, hdrop, hne]

theorem exists_digitsWritten {ds : List Nat} {cs rest : List Char}
    (h : digits? cs = some (ds, rest)) : ∃ w, DigitsWritten ds w ∧ cs = w ++ rest := by
  simp only [digits?] at h
  split at h
  · exact absurd h (by simp)
  · next hne =>
    obtain ⟨rfl, rfl⟩ := Prod.mk.inj (Option.some.inj h)
    refine ⟨cs.takeWhile Char.isDigit, ⟨by simpa using hne, ?_, rfl⟩, ?_⟩
    · exact List.all_eq_true.1 List.all_takeWhile
    · exact List.takeWhile_append_dropWhile.symm

theorem DigitsWritten.head_isDigit {ds : List Nat} {w : List Char} (h : DigitsWritten ds w)
    (rest : List Char) : ∃ c cs, w ++ rest = c :: cs ∧ c.isDigit = true := by
  obtain ⟨hne, hdigits, -⟩ := h
  cases w with
  | nil => exact absurd rfl hne
  | cons c w => exact ⟨c, w ++ rest, rfl, hdigits c List.mem_cons_self⟩

theorem wholePart?_eq_some {ds : List Nat} {w rest : List Char} (h : DigitsWritten ds w)
    (hzero : ∀ d es, ds ≠ 0 :: d :: es) (hrest : ∀ c ∈ rest.head?, c.isDigit = false) :
    wholePart? (w ++ rest) = some (ds, rest) := by
  unfold wholePart?
  rw [digits?_eq_some h hrest]
  split
  · next heq => exact absurd (Prod.mk.inj (Option.some.inj heq)).1 (hzero _ _)
  · next heq => exact absurd heq (by simp)
  · next heq => exact heq.symm

theorem exists_wholeWritten {ds : List Nat} {cs rest : List Char}
    (h : wholePart? cs = some (ds, rest)) :
    ∃ w, DigitsWritten ds w ∧ (∀ d es, ds ≠ 0 :: d :: es) ∧ cs = w ++ rest := by
  unfold wholePart? at h
  split at h
  · exact absurd h (by simp)
  · exact absurd h (by simp)
  · next hzero hdigits =>
    obtain rfl := Option.some.inj h
    obtain ⟨w, hw, rfl⟩ := exists_digitsWritten hdigits
    refine ⟨w, hw, ?_, rfl⟩
    rintro d es rfl
    exact hzero d es rest rfl

theorem fractionPart?_eq_some {ds : List Nat} {w rest : List Char} (h : FractionWritten ds w)
    (hrest : ∀ c ∈ rest.head?, c.isDigit = false ∧ c ≠ '.') :
    fractionPart? (w ++ rest) = some (ds, rest) := by
  cases h with
  | none =>
    unfold fractionPart?
    split
    · next heq => exact absurd rfl (hrest '.' (by rw [← List.nil_append rest, heq]; rfl)).2
    · next heq => rw [List.nil_append]
  | point h =>
    rw [List.cons_append, fractionPart?]
    exact digits?_eq_some h fun c hc => (hrest c hc).1

theorem exists_fractionWritten {ds : List Nat} {cs rest : List Char}
    (h : fractionPart? cs = some (ds, rest)) : ∃ w, FractionWritten ds w ∧ cs = w ++ rest := by
  unfold fractionPart? at h
  split at h
  · obtain ⟨w, hw, rfl⟩ := exists_digitsWritten h
    exact ⟨_, .point hw, rfl⟩
  · obtain ⟨rfl, rfl⟩ := Prod.mk.inj (Option.some.inj h)
    exact ⟨[], .none, rfl⟩

theorem unsignedExponent?_eq_some {ds : List Nat} {w rest : List Char} (h : DigitsWritten ds w)
    (hrest : ∀ c ∈ rest.head?, c.isDigit = false) :
    unsignedExponent? (w ++ rest) = some (decimal ds, rest) := by
  rw [unsignedExponent?, digits?_eq_some h hrest]
  rfl

theorem exists_unsignedWritten {e : Int} {cs rest : List Char}
    (h : unsignedExponent? cs = some (e, rest)) :
    ∃ ds w, e = decimal ds ∧ DigitsWritten ds w ∧ cs = w ++ rest := by
  obtain ⟨⟨ds, _⟩, hds, heq⟩ := Option.map_eq_some_iff.1 h
  obtain ⟨rfl, rfl⟩ := Prod.mk.inj heq
  obtain ⟨w, hw, rfl⟩ := exists_digitsWritten hds
  exact ⟨ds, w, rfl, hw, rfl⟩

theorem exponent?_eq_some {e : Int} {w rest : List Char} (h : SignedWritten e w)
    (hrest : ∀ c ∈ rest.head?, c.isDigit = false) : exponent? (w ++ rest) = some (e, rest) := by
  cases h with
  | plain h =>
    obtain ⟨c, cs, hcons, hc⟩ := h.head_isDigit rest
    have hexponent := unsignedExponent?_eq_some h hrest
    rw [hcons] at hexponent ⊢
    unfold exponent?
    split
    · next heq =>
      obtain ⟨rfl, -⟩ := List.cons.inj heq
      exact absurd hc (by decide)
    · next heq =>
      obtain ⟨rfl, -⟩ := List.cons.inj heq
      exact absurd hc (by decide)
    · exact hexponent
  | plus h => exact unsignedExponent?_eq_some h hrest
  | minus h =>
    rw [List.cons_append, exponent?, unsignedExponent?_eq_some h hrest]
    rfl

theorem exists_signedWritten {e : Int} {cs rest : List Char} (h : exponent? cs = some (e, rest)) :
    ∃ w, SignedWritten e w ∧ cs = w ++ rest := by
  unfold exponent? at h
  split at h
  · obtain ⟨⟨n, _⟩, hn, heq⟩ := Option.map_eq_some_iff.1 h
    obtain ⟨rfl, rfl⟩ := Prod.mk.inj heq
    obtain ⟨ds, w, rfl, hw, rfl⟩ := exists_unsignedWritten hn
    exact ⟨_, .minus hw, rfl⟩
  · obtain ⟨ds, w, rfl, hw, rfl⟩ := exists_unsignedWritten h
    exact ⟨_, .plus hw, rfl⟩
  · obtain ⟨ds, w, rfl, hw, rfl⟩ := exists_unsignedWritten h
    exact ⟨_, .plain hw, rfl⟩

theorem exponentPart?_eq_some {e : Option Int} {w rest : List Char} (h : ExponentWritten e w)
    (hrest : EndsNumber rest) : exponentPart? (w ++ rest) = some (e, rest) := by
  cases h with
  | none =>
    rw [List.nil_append]
    unfold exponentPart?
    split
    · exact absurd rfl (hrest 'e' rfl).2.2.1
    · exact absurd rfl (hrest 'E' rfl).2.2.2
    · rfl
  | @mark c e w hc h =>
    have hexponent := exponent?_eq_some h fun c hc => (hrest c hc).1
    rcases hc with rfl | rfl
    · rw [List.cons_append, exponentPart?, hexponent]
      rfl
    · rw [List.cons_append, exponentPart?, hexponent]
      rfl

theorem exists_exponentWritten {e : Option Int} {cs rest : List Char}
    (h : exponentPart? cs = some (e, rest)) : ∃ w, ExponentWritten e w ∧ cs = w ++ rest := by
  unfold exponentPart? at h
  split at h
  case h_3 =>
    obtain ⟨rfl, rfl⟩ := Prod.mk.inj (Option.some.inj h)
    exact ⟨[], .none, rfl⟩
  all_goals
    obtain ⟨⟨n, _⟩, hn, heq⟩ := Option.map_eq_some_iff.1 h
    obtain ⟨rfl, rfl⟩ := Prod.mk.inj heq
    obtain ⟨w, hw, rfl⟩ := exists_signedWritten hn
  · exact ⟨_, .mark (Or.inl rfl) hw, rfl⟩
  · exact ⟨_, .mark (Or.inr rfl) hw, rfl⟩

theorem ExponentWritten.head {e : Option Int} {w rest : List Char} (h : ExponentWritten e w)
    (hrest : EndsNumber rest) : ∀ c ∈ (w ++ rest).head?, c.isDigit = false ∧ c ≠ '.' := by
  cases h with
  | none => exact fun c hc => ⟨(hrest c hc).1, (hrest c hc).2.1⟩
  | mark hmark _ =>
    intro c hc
    obtain rfl := Option.some.inj hc
    rcases hmark with rfl | rfl <;> decide

theorem FractionWritten.head {ds : List Nat} {w rest : List Char} (h : FractionWritten ds w)
    (hrest : ∀ c ∈ rest.head?, c.isDigit = false ∧ c ≠ '.') :
    ∀ c ∈ (w ++ rest).head?, c.isDigit = false := by
  cases h with
  | none => exact fun c hc => (hrest c hc).1
  | point _ =>
    intro c hc
    obtain rfl := Option.some.inj hc
    decide

theorem unsignedNumber?_eq_some {n : NumberText} {w rest : List Char} (h : UnsignedWritten n w)
    (hrest : EndsNumber rest) : unsignedNumber? n.negative (w ++ rest) = some (n, rest) := by
  cases h with
  | @mk whole fraction exponent hwhole hzero hfraction hexponent =>
    have hafter := hexponent.head hrest
    unfold unsignedNumber?
    rw [List.append_assoc, List.append_assoc,
      wholePart?_eq_some hwhole hzero (hfraction.head hafter)]
    simp [fractionPart?_eq_some hfraction hafter, exponentPart?_eq_some hexponent hrest]

theorem exists_numberWritten {negative : Bool} {n : NumberText} {cs rest : List Char}
    (h : unsignedNumber? negative cs = some (n, rest)) :
    ∃ w, n.negative = negative ∧ UnsignedWritten n w ∧ cs = w ++ rest := by
  unfold unsignedNumber? at h
  simp only [Option.bind_eq_bind, Option.bind_eq_some_iff] at h
  obtain ⟨⟨whole, _⟩, hwhole, ⟨fraction, _⟩, hfraction, ⟨exponent, _⟩, hexponent, h⟩ := h
  obtain ⟨rfl, rfl⟩ := Prod.mk.inj (Option.some.inj h)
  obtain ⟨w, hw, hzero, rfl⟩ := exists_wholeWritten hwhole
  obtain ⟨f, hf, rfl⟩ := exists_fractionWritten hfraction
  obtain ⟨e, he, rfl⟩ := exists_exponentWritten hexponent
  exact ⟨w ++ (f ++ e), rfl, .mk hw hzero hf he, by simp⟩

/-! ## Words for tokens -/

/-- The words that spell a token. None spells a fault. -/
inductive Spelled : Token → List Char → Prop
  | openList : Spelled .openList ['[']
  | closeList : Spelled .closeList [']']
  | openObject : Spelled .openObject ['\x7b']
  | closeObject : Spelled .closeObject ['\x7d']
  | comma : Spelled .comma [',']
  | colon : Spelled .colon [':']
  | null : Spelled .null ['n', 'u', 'l', 'l']
  | yes : Spelled (.boolean true) ['t', 'r', 'u', 'e']
  | no : Spelled (.boolean false) ['f', 'a', 'l', 's', 'e']
  | text {ps : List Piece} {w : List Char} (h : PiecesWritten ps w) :
      Spelled (.text ((joined ps).map String.ofList)) ('"' :: (w ++ ['"']))
  | positive {n : NumberText} {w : List Char} (h : UnsignedWritten n w)
      (hn : n.negative = false) : Spelled (.number n.value) w
  | negative {n : NumberText} {w : List Char} (h : UnsignedWritten n w)
      (hn : n.negative = true) : Spelled (.number n.value) ('-' :: w)

def Token.isNumber : Token → Bool
  | .number _ => true
  | _ => false

theorem UnsignedWritten.head_isDigit {n : NumberText} {w : List Char} (h : UnsignedWritten n w) :
    ∃ c cs, w = c :: cs ∧ c.isDigit = true := by
  cases h with
  | mk hwhole _ _ _ => exact hwhole.head_isDigit _

theorem isSpace_eq_false_of_isDigit {c : Char} (h : c.isDigit = true) : isSpace c = false := by
  by_contra hspace
  simp only [isSpace, Bool.not_eq_false, Bool.or_eq_true, beq_iff_eq] at hspace
  rcases hspace with ((rfl | rfl) | rfl) | rfl <;> exact absurd h (by decide)

/-- A word starts with no blank, and with a digit only if it is a number. -/
theorem Spelled.head {t : Token} {w : List Char} (h : Spelled t w) :
    ∃ c cs, w = c :: cs ∧ isSpace c = false ∧ c ≠ '.' ∧ c ≠ 'e' ∧ c ≠ 'E' ∧
      (t.isNumber = false → c.isDigit = false) := by
  cases h with
  | positive h _ =>
    obtain ⟨c, cs, rfl, hc⟩ := h.head_isDigit
    refine ⟨c, cs, rfl, isSpace_eq_false_of_isDigit hc, ?_, ?_, ?_, fun h => absurd h nofun⟩
    all_goals
      rintro rfl
      exact absurd hc (by decide)
  | _ => exact ⟨_, _, rfl, by decide, by decide, by decide, by decide, fun _ => by decide⟩

theorem word?_append (t : Token) (letters rest : List Char) :
    word? t letters (letters ++ rest) = some (t, rest) := by
  simp [word?]

theorem eq_of_word? {t found : Token} {letters cs rest : List Char}
    (h : word? t letters cs = some (found, rest)) : found = t ∧ cs = letters ++ rest := by
  unfold word? at h
  split at h
  · next hprefixed =>
    obtain ⟨rfl, rfl⟩ := Prod.mk.inj (Option.some.inj h)
    obtain ⟨tail, rfl⟩ := List.isPrefixOf_iff_prefix.1 hprefixed
    exact ⟨rfl, by simp⟩
  · exact absurd h (by simp)

/-- A word is read as the token that it spells. -/
theorem token?_of_spelled {t : Token} {c : Char} {w rest : List Char} (h : Spelled t (c :: w))
    (hrest : t.isNumber = true → EndsNumber rest) : token? c (w ++ rest) = some (t, rest) := by
  generalize hword : c :: w = word at h
  cases h with
  | null =>
    obtain ⟨rfl, rfl⟩ := List.cons.inj hword
    exact word?_append _ _ _
  | yes =>
    obtain ⟨rfl, rfl⟩ := List.cons.inj hword
    exact word?_append _ _ _
  | no =>
    obtain ⟨rfl, rfl⟩ := List.cons.inj hword
    exact word?_append _ _ _
  | text h =>
    obtain ⟨rfl, rfl⟩ := List.cons.inj hword
    rw [token?, List.append_assoc, List.singleton_append, pieces_eq_some h]
    rfl
  | positive h hn =>
    have hnumber := unsignedNumber?_eq_some h (hrest rfl)
    obtain ⟨_, _, rfl, hc⟩ := h.head_isDigit
    obtain ⟨rfl, rfl⟩ := List.cons.inj hword
    rw [hn, List.cons_append] at hnumber
    unfold token?
    split
    case h_12 => rw [hnumber]; rfl
    all_goals exact absurd hc (by decide)
  | negative h hn =>
    obtain ⟨rfl, rfl⟩ := List.cons.inj hword
    have hnumber := unsignedNumber?_eq_some h (hrest rfl)
    rw [hn] at hnumber
    rw [token?, hnumber]
    rfl
  | _ =>
    obtain ⟨rfl, rfl⟩ := List.cons.inj hword
    rfl

/-- What is read as a token is a word that spells it. -/
theorem exists_spelled_of_token? {c : Char} {cs rest : List Char} {t : Token}
    (h : token? c cs = some (t, rest)) : ∃ w, Spelled t w ∧ c :: cs = w ++ rest := by
  unfold token? at h
  split at h
  case h_7 =>
    obtain ⟨rfl, rfl⟩ := eq_of_word? h
    exact ⟨_, .null, rfl⟩
  case h_8 =>
    obtain ⟨rfl, rfl⟩ := eq_of_word? h
    exact ⟨_, .yes, rfl⟩
  case h_9 =>
    obtain ⟨rfl, rfl⟩ := eq_of_word? h
    exact ⟨_, .no, rfl⟩
  case h_10 =>
    obtain ⟨⟨ps, _⟩, hpieces, heq⟩ := Option.map_eq_some_iff.1 h
    obtain ⟨rfl, rfl⟩ := Prod.mk.inj heq
    obtain ⟨w, hw, rfl⟩ := exists_piecesWritten hpieces
    exact ⟨_, .text hw, by simp⟩
  case h_11 =>
    obtain ⟨⟨n, _⟩, hnumber, heq⟩ := Option.map_eq_some_iff.1 h
    obtain ⟨rfl, rfl⟩ := Prod.mk.inj heq
    obtain ⟨w, hn, hw, rfl⟩ := exists_numberWritten hnumber
    exact ⟨_, .negative hw hn, rfl⟩
  case h_12 =>
    obtain ⟨⟨n, _⟩, hnumber, heq⟩ := Option.map_eq_some_iff.1 h
    obtain ⟨rfl, rfl⟩ := Prod.mk.inj heq
    obtain ⟨w, hn, hw, hcs⟩ := exists_numberWritten hnumber
    exact ⟨w, .positive hw hn, hcs⟩
  all_goals obtain ⟨rfl, rfl⟩ := Prod.mk.inj (Option.some.inj h)
  · exact ⟨_, .openList, rfl⟩
  · exact ⟨_, .closeList, rfl⟩
  · exact ⟨_, .openObject, rfl⟩
  · exact ⟨_, .closeObject, rfl⟩
  · exact ⟨_, .comma, rfl⟩
  · exact ⟨_, .colon, rfl⟩

/-! ## Rows of words -/

/-- A text is a row of words with blanks between them, before the first and after the last. -/
inductive Lexed : List Char → List Token → Prop
  | nil : Lexed [] []
  | space {c : Char} {cs : List Char} {ts : List Token} (hc : isSpace c = true) (h : Lexed cs ts) :
      Lexed (c :: cs) ts
  | word {t : Token} {w cs : List Char} {ts : List Token} (ht : Spelled t w) (h : Lexed cs ts) :
      Lexed (w ++ cs) (t :: ts)

/-- No two numbers follow each other, so that every word shows where it ends. -/
def Apart : List Token → Prop
  | [] => True
  | t :: ts => (t.isNumber = true → ∀ u ∈ ts.head?, u.isNumber = false) ∧ Apart ts

theorem tokens_of_isSpace {c : Char} (h : isSpace c = true) (cs : List Char) :
    tokens (c :: cs) = tokens cs := by
  rw [tokens, if_pos h]

theorem tokens_of_token? {c : Char} {cs rest : List Char} {t : Token} (hc : isSpace c = false)
    (h : token? c cs = some (t, rest)) : tokens (c :: cs) = t :: tokens rest := by
  rw [tokens, if_neg (by simp [hc])]
  split
  · next heq =>
    obtain ⟨rfl, rfl⟩ := Prod.mk.inj (Option.some.inj (heq.symm.trans h))
    rfl
  · next heq => exact absurd (heq.symm.trans h) (by simp)

theorem Lexed.endsNumber {cs : List Char} {ts : List Token} (h : Lexed cs ts)
    (hts : ∀ t ∈ ts.head?, t.isNumber = false) : EndsNumber cs := by
  cases h with
  | nil => exact fun c hc => absurd hc (by simp)
  | @space c cs _ hc _ =>
    intro c' hc'
    obtain rfl : c = c' := Option.some.inj hc'
    simp only [isSpace, Bool.or_eq_true, beq_iff_eq] at hc
    rcases hc with ((rfl | rfl) | rfl) | rfl <;> decide
  | @word t w cs ts ht _ =>
    obtain ⟨c, w, rfl, -, hpoint, he, hE, hdigit⟩ := ht.head
    intro c' hc'
    obtain rfl : c = c' := Option.some.inj hc'
    exact ⟨hdigit (hts t rfl), hpoint, he, hE⟩

theorem tokens_of_lexed {cs : List Char} {ts : List Token} (h : Lexed cs ts) (hts : Apart ts) :
    tokens cs = ts := by
  induction h with
  | nil => rw [tokens]
  | space hc _ ih => rw [tokens_of_isSpace hc, ih hts]
  | @word t w cs ts ht hrest ih =>
    obtain ⟨hnext, hts⟩ := hts
    have hends : t.isNumber = true → EndsNumber cs := fun hnumber =>
      hrest.endsNumber (hnext hnumber)
    obtain ⟨c, w, rfl, hspace, -⟩ := ht.head
    rw [List.cons_append, tokens_of_token? hspace (token?_of_spelled ht hends), ih hts]

theorem lexed_tokens (cs : List Char) : Token.fault ∈ tokens cs ∨ Lexed cs (tokens cs) := by
  fun_induction tokens cs with
  | case1 => exact Or.inr .nil
  | case2 c cs hc ih => exact ih.imp_right (.space hc)
  | case3 c cs hc t rest h ih =>
    obtain ⟨w, ht, hcs⟩ := exists_spelled_of_token? h
    rw [hcs]
    exact ih.imp (List.mem_cons_of_mem t) (.word ht)
  | case4 c cs hc h => exact Or.inl List.mem_cons_self

theorem Lexed.fault_not_mem {cs : List Char} {ts : List Token} (h : Lexed cs ts) :
    Token.fault ∉ ts := by
  induction h with
  | nil => exact List.not_mem_nil
  | space _ _ ih => exact ih
  | word ht _ ih =>
    intro hmem
    rcases List.mem_cons.1 hmem with rfl | hmem
    · cases ht
    · exact ih hmem

end GoBindings.Json
