import GoBindings.Proofs.Identifiers
import GoBindings.Proofs.Outcome
import GoBindings.TypeExpr
import Mathlib.Data.List.DropRight

set_option autoImplicit false

/-! # The grammar of type expressions

`Spells` says which texts spell a type: a word, markers after an expression, and blanks around any
expression. The reader takes an expression apart from its end, trimming at every marker; it accepts
exactly the texts that the grammar derives, with the type that they spell (`parseChars_eq_ok_iff`).
Of all spellings of a type one is without blanks (`TypeExpr.spelling`). -/

namespace GoBindings

/-! ## Trimming -/

namespace Text

/-- Blanks only, or nothing. -/
def Blanks (cs : List Char) : Prop := ∀ c ∈ cs, isBlank c = true

theorem trim_surrounded {before after : List Char} (hbefore : Blanks before) (hafter : Blanks after)
    (cs : List Char) : trim (before ++ cs ++ after) = trim cs := by
  have hend : ∀ ds : List Char, trimEnd (ds ++ after) = trimEnd ds := by
    intro ds
    unfold trimEnd
    rw [List.reverse_append, List.dropWhile_append_of_pos]
    intro c hc
    exact hafter c (List.mem_reverse.1 hc)
  unfold trim
  rw [List.append_assoc, List.dropWhile_append_of_pos hbefore, List.dropWhile_append]
  split
  · next hempty =>
    rw [List.isEmpty_iff.1 hempty, List.dropWhile_eq_nil_iff.2 hafter]
  · exact hend _

theorem exists_blanks_around_trim (cs : List Char) :
    ∃ before after, Blanks before ∧ Blanks after ∧ cs = before ++ trim cs ++ after := by
  refine ⟨cs.takeWhile isBlank, (cs.dropWhile isBlank).rtakeWhile isBlank,
    fun _ => List.mem_takeWhile_imp, fun _ => List.mem_rtakeWhile_imp, ?_⟩
  have hend : trim cs ++ (cs.dropWhile isBlank).rtakeWhile isBlank = cs.dropWhile isBlank :=
    List.rdropWhile_append_rtakeWhile
  rw [List.append_assoc, hend, List.takeWhile_append_dropWhile]

/-- What stands after an expression and holds no blank shields it from trimming at the end. -/
theorem trim_append {marker : List Char} (hne : marker ≠ []) (hmarker : marker.any isBlank = false)
    (cs : List Char) : trim (cs ++ marker) = cs.dropWhile isBlank ++ marker := by
  rw [List.any_eq_false] at hmarker
  have hstart : (cs ++ marker).dropWhile isBlank = cs.dropWhile isBlank ++ marker := by
    obtain ⟨c, rest, rfl⟩ := List.exists_cons_of_ne_nil hne
    rw [List.dropWhile_append, List.dropWhile_cons_of_neg (hmarker c List.mem_cons_self)]
    split
    · next hempty => rw [List.isEmpty_iff.1 hempty, List.nil_append]
    · rfl
  rw [trim, hstart]
  have hlast : ∀ h, ¬isBlank ((cs.dropWhile isBlank ++ marker).getLast h) = true := by
    intro h
    rw [List.getLast_append_of_ne_nil h hne]
    exact hmarker _ (List.getLast_mem hne)
  exact List.rdropWhile_eq_self_iff.2 hlast

theorem beforeEnding?_eq_some_iff {ending cs front : List Char} :
    beforeEnding? ending cs = some front ↔ cs = front ++ ending := by
  unfold beforeEnding?
  rw [Option.ite_none_right_eq_some, List.isSuffixOf_iff_suffix]
  constructor
  · rintro ⟨hsuffix, hfront⟩
    rw [← Option.some.inj hfront]
    exact (List.suffix_iff_eq_append.1 hsuffix).symm
  · rintro rfl
    exact ⟨List.suffix_append front ending, by simp⟩

theorem beforeEnding?_eq_none_iff {ending cs : List Char} :
    beforeEnding? ending cs = none ↔ ∀ front, cs ≠ front ++ ending := by
  rw [Option.eq_none_iff_forall_ne_some]
  exact forall_congr' fun front => not_congr beforeEnding?_eq_some_iff

end Text

open Outcome Text

/-! ## Words -/

namespace Primitive

/-- The words for a primitive type, the one in canonical spellings first. -/
def spellings : Primitive → List String
  | text => ["String", "string"]
  | int => ["int"]
  | int64 => ["int64"]
  | float => ["float", "double"]
  | boolean => ["boolean"]

theorem ofWord?_eq_some_iff {word : String} {p : Primitive} :
    ofWord? word = some p ↔ word ∈ p.spellings := by
  unfold ofWord?
  split <;> cases p <;> simp_all [spellings]

theorem ofWord?_eq_none_iff {word : String} :
    ofWord? word = none ↔ ∀ p : Primitive, word ∉ p.spellings := by
  rw [Option.eq_none_iff_forall_ne_some]
  exact forall_congr' fun p => not_congr ofWord?_eq_some_iff

end Primitive

namespace TypeExpr

/-- A letter, then any number of letters, digits and underscores. -/
def IsWord (cs : List Char) : Prop :=
  ∃ c rest, cs = c :: rest ∧ c.isAlpha = true ∧ ∀ d ∈ rest, d.isAlphanum = true ∨ d = '_'

/-- A word that is no primitive type. -/
def IsName (name : String) : Prop := IsWord name.toList ∧ ∀ p : Primitive, name ∉ p.spellings

theorem isWord_iff {cs : List Char} : isWord cs = true ↔ IsWord cs := by
  unfold IsWord
  cases cs with
  | nil => simp [isWord]
  | cons c cs => simp [isWord]

/-- A word, and the type that it stands for. -/
inductive Word : List Char → TypeExpr → Prop
  | primitive {p : Primitive} {word : String} (h : word ∈ p.spellings) :
      Word word.toList (.primitive p)
  | named {name : String} (h : IsName name) : Word name.toList (.named name)

theorem isWord_of_mem_spellings {word : String} {p : Primitive} (h : word ∈ p.spellings) :
    IsWord word.toList := by
  have hall : ∀ p : Primitive, ∀ word ∈ p.spellings, isWord word.toList = true := by
    intro p
    cases p <;> decide
  exact isWord_iff.1 (hall p word h)

theorem Word.isWord {cs : List Char} {t : TypeExpr} (h : Word cs t) : IsWord cs := by
  cases h with
  | primitive hmem => exact isWord_of_mem_spellings hmem
  | named hname => exact hname.1

theorem ofWord_eq_ok_iff {raw cs : List Char} {t : TypeExpr} :
    ofWord raw cs = .ok t ↔ Word cs t := by
  obtain ⟨word, rfl⟩ : ∃ word : String, word.toList = cs := ⟨String.ofList cs, String.toList_ofList⟩
  unfold ofWord
  rw [String.ofList_toList]
  constructor
  · intro h
    split at h
    · next hsome =>
      cases h
      exact .primitive (Primitive.ofWord?_eq_some_iff.1 hsome)
    · next hnone =>
      split at h
      · next hword =>
        cases h
        exact .named ⟨isWord_iff.1 hword, Primitive.ofWord?_eq_none_iff.1 hnone⟩
      · cases h
  · intro h
    generalize hcs : word.toList = cs at h
    cases h with
    | primitive hmem =>
      rw [String.toList_inj.1 hcs, Primitive.ofWord?_eq_some_iff.2 hmem]
    | named hname =>
      rw [String.toList_inj.1 hcs, Primitive.ofWord?_eq_none_iff.2 hname.2]
      exact if_pos (isWord_iff.2 (hcs ▸ hname.1))

theorem IsWord.isPart {cs : List Char} (h : IsWord cs) {c : Char} (hc : c ∈ cs) :
    Identifier.isPart c = true := by
  obtain ⟨first, rest, rfl, hfirst, hrest⟩ := h
  rcases List.mem_cons.1 hc with rfl | hc
  · exact Identifier.isPart_of_isAlpha hfirst
  · rcases hrest c hc with hpart | rfl
    · exact Bool.or_eq_true_iff.2 (Or.inl hpart)
    · rfl

theorem not_isBlank_of_isPart {c : Char} (h : Identifier.isPart c = true) :
    ¬isBlank c = true :=
  Identifier.of_isPart (P := fun c => ¬isBlank c = true) (by decide) h

/-- No word ends in a marker. -/
theorem IsWord.ne_append {cs front : List Char} (h : IsWord cs) {a b : Char}
    (hb : Identifier.isPart b = false) : cs ≠ front ++ [a, b] := by
  rintro rfl
  have hpart : Identifier.isPart b = true := h.isPart (by simp)
  rw [hb] at hpart
  exact Bool.false_ne_true hpart

/-! ## Expressions -/

/-- The text is derived for the type. -/
inductive Spells : List Char → TypeExpr → Prop
  | word {cs : List Char} {t : TypeExpr} (h : Word cs t) : Spells cs t
  | collection {cs : List Char} {item : TypeExpr} (h : Spells cs item) :
      Spells (cs ++ ['[', ']']) (.collection item)
  | optional {cs : List Char} {inner : TypeExpr} (h : Spells cs inner) :
      Spells (cs ++ ['<', '>']) (.optional inner)
  | blanks {before cs after : List Char} {t : TypeExpr} (hbefore : Blanks before)
      (hafter : Blanks after) (h : Spells cs t) : Spells (before ++ cs ++ after) t

/-- What a trimmed text is read as, from what the text before its last marker is read as. -/
inductive Step : List Char → TypeExpr → Prop
  | word {cs : List Char} {t : TypeExpr} (h : Word cs t) : Step cs t
  | collection {front : List Char} {item : TypeExpr} (h : parseChars front = .ok item) :
      Step (front ++ ['[', ']']) (.collection item)
  | optional {front : List Char} {inner : TypeExpr} (h : parseChars front = .ok inner) :
      Step (front ++ ['<', '>']) (.optional inner)

theorem Step.ne_nil {cs : List Char} {t : TypeExpr} (h : Step cs t) : cs ≠ [] := by
  cases h with
  | word hword =>
    obtain ⟨c, rest, rfl, -⟩ := hword.isWord
    exact List.cons_ne_nil c rest
  | collection => simp
  | optional => simp

theorem parseChars_eq_ok_iff {raw : List Char} {t : TypeExpr} :
    parseChars raw = .ok t ↔ Step (trim raw) t := by
  rw [parseChars]
  generalize trim raw = cs
  constructor
  · intro h
    split at h
    · cases h
    split at h
    · next front hfront =>
      obtain ⟨item, hitem, rfl⟩ := map_eq_ok_iff.1 h
      rw [beforeEnding?_eq_some_iff.1 hfront]
      exact .collection hitem
    split at h
    · next front hfront =>
      obtain ⟨inner, hinner, rfl⟩ := map_eq_ok_iff.1 h
      rw [beforeEnding?_eq_some_iff.1 hfront]
      exact .optional hinner
    · exact .word (ofWord_eq_ok_iff.1 h)
  · intro h
    rw [if_neg (mt List.isEmpty_iff.1 h.ne_nil)]
    -- the last characters tell the three rules apart
    cases h with
    | word hword =>
      split
      · next hfront =>
        exact absurd (beforeEnding?_eq_some_iff.1 hfront) (hword.isWord.ne_append (by decide))
      split
      · next hfront =>
        exact absurd (beforeEnding?_eq_some_iff.1 hfront) (hword.isWord.ne_append (by decide))
      · exact ofWord_eq_ok_iff.2 hword
    | collection hitem =>
      split
      · next hfront =>
        rw [← List.append_cancel_right (beforeEnding?_eq_some_iff.1 hfront)]
        exact map_eq_ok_iff.2 ⟨_, hitem, rfl⟩
      · next hnone => exact absurd rfl (beforeEnding?_eq_none_iff.1 hnone _)
    | optional hinner =>
      split
      · next hfront =>
        have hmarker := List.append_inj_right' (beforeEnding?_eq_some_iff.1 hfront) rfl
        exact absurd hmarker (by decide)
      split
      · next hfront =>
        rw [← List.append_cancel_right (beforeEnding?_eq_some_iff.1 hfront)]
        exact map_eq_ok_iff.2 ⟨_, hinner, rfl⟩
      · next hnone => exact absurd rfl (beforeEnding?_eq_none_iff.1 hnone _)

/-- Only the error for a text that is no expression depends on the blanks around it. -/
theorem parseChars_eq_ok_congr {raw other : List Char} (h : trim raw = trim other) {t : TypeExpr} :
    parseChars raw = .ok t ↔ parseChars other = .ok t := by
  rw [parseChars_eq_ok_iff, parseChars_eq_ok_iff, h]

/-! ## The reader and the grammar -/

theorem spells_of_parseChars {raw : List Char} {t : TypeExpr} (h : parseChars raw = .ok t) :
    Spells raw t := by
  -- the text before a marker is shorter, and it is read before the marker counts
  induction hlength : raw.length using Nat.strong_induction_on generalizing raw t with
  | _ n ih =>
    subst hlength
    have hshorter := length_trim_le raw
    obtain ⟨before, after, hbefore, hafter, hraw⟩ := exists_blanks_around_trim raw
    have hstep := parseChars_eq_ok_iff.1 h
    rw [hraw]
    refine .blanks hbefore hafter ?_
    generalize trim raw = cs at hstep hshorter
    cases hstep with
    | word hword => exact .word hword
    | collection hitem =>
      rw [List.length_append] at hshorter
      exact .collection (ih _ (by simp at hshorter; omega) hitem rfl)
    | optional hinner =>
      rw [List.length_append] at hshorter
      exact .optional (ih _ (by simp at hshorter; omega) hinner rfl)

theorem parseChars_of_word {cs : List Char} {t : TypeExpr} (h : Word cs t) :
    parseChars cs = .ok t := by
  have hblank : cs.any isBlank = false :=
    List.any_eq_false.2 fun c hc => not_isBlank_of_isPart (h.isWord.isPart hc)
  obtain ⟨c, rest, hcs, -⟩ := h.isWord
  have htrim : trim cs = cs := trim_append (hcs ▸ List.cons_ne_nil c rest) hblank []
  rw [parseChars_eq_ok_iff, htrim]
  exact .word h

/-- A marker is read off whatever blanks stand before it. -/
theorem parseChars_of_spells {raw : List Char} {t : TypeExpr} (h : Spells raw t) :
    parseChars raw = .ok t := by
  have hinner : ∀ cs : List Char, trim (cs.dropWhile isBlank) = trim cs := by
    intro cs
    unfold trim
    rw [List.dropWhile_idempotent]
  induction h with
  | word hword => exact parseChars_of_word hword
  | collection _ ih =>
    rw [parseChars_eq_ok_iff, trim_append (by simp) rfl]
    exact .collection ((parseChars_eq_ok_congr (hinner _)).2 ih)
  | optional _ ih =>
    rw [parseChars_eq_ok_iff, trim_append (by simp) rfl]
    exact .optional ((parseChars_eq_ok_congr (hinner _)).2 ih)
  | blanks hbefore hafter _ ih =>
    exact (parseChars_eq_ok_congr (trim_surrounded hbefore hafter _)).2 ih

theorem parse_eq_ok_iff {raw : String} {t : TypeExpr} :
    parse raw = .ok t ↔ Spells raw.toList t :=
  ⟨spells_of_parseChars, parseChars_of_spells⟩

/-! ## Canonical spellings -/

/-- The spelling without blanks, with the first of the words for a primitive type. -/
def spelling : TypeExpr → String
  | primitive .text => "String"
  | primitive .int => "int"
  | primitive .int64 => "int64"
  | primitive .float => "float"
  | primitive .boolean => "boolean"
  | named name => name
  | collection item => item.spelling ++ "[]"
  | optional inner => inner.spelling ++ "<>"

/-- The names in the type are words, and no words for primitive types. -/
def NamesAreWords : TypeExpr → Prop
  | primitive _ => True
  | named name => IsName name
  | collection item => item.NamesAreWords
  | optional inner => inner.NamesAreWords

theorem spells_spelling {t : TypeExpr} (h : t.NamesAreWords) : Spells t.spelling.toList t := by
  induction t with
  | primitive p => cases p <;> exact .word (.primitive (by decide))
  | named name => exact .word (.named h)
  | collection item ih =>
    rw [spelling, String.toList_append]
    exact .collection (ih h)
  | optional inner ih =>
    rw [spelling, String.toList_append]
    exact .optional (ih h)

/-- No text spells a type with other names. -/
theorem Spells.namesAreWords {cs : List Char} {t : TypeExpr} (h : Spells cs t) :
    t.NamesAreWords := by
  induction h with
  | word hword =>
    cases hword with
    | primitive _ => trivial
    | named hname => exact hname
  | collection _ ih => exact ih
  | optional _ ih => exact ih
  | blanks _ _ _ ih => exact ih

/-- **The reader accepts exactly the grammar.** A text is read as a type exactly if it is derived for
    that type, and every text that is derived for no type is an error. The canonical spelling of a
    type is read as that type, provided its names are words that a type can be named by. -/
theorem parse_accepts_exactly_grammar (raw : String) (t : TypeExpr) :
    (parse raw = .ok t ↔ Spells raw.toList t) ∧
    ((∃ error, parse raw = .error error) ↔ ∀ u, ¬Spells raw.toList u) ∧
    (parse t.spelling = .ok t ↔ t.NamesAreWords) := by
  refine ⟨parse_eq_ok_iff, ?_, ?_⟩
  · constructor
    · rintro ⟨error, herror⟩ u hu
      rw [parse_eq_ok_iff.2 hu] at herror
      cases herror
    · intro hnone
      cases hparse : parse raw with
      | error error => exact ⟨error, rfl⟩
      | ok u => exact absurd (parse_eq_ok_iff.1 hparse) (hnone u)
  · rw [parse_eq_ok_iff]
    exact ⟨Spells.namesAreWords, spells_spelling⟩

/-- Blanks may stand before every marker. -/
example : parse " Tag\t[] <>" = .ok (.optional (.collection (.named "Tag"))) := by decide +kernel

end TypeExpr

end GoBindings
