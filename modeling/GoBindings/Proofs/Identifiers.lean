import GoBindings.Identifier
import Mathlib.Data.List.Basic

set_option autoImplicit false

/-! # Names of members and parameters

What is left of a name in the alphabet of identifiers starts with a letter or an underscore
(`exists_sanitizeChars`). So an exported name starts with a capital letter of ASCII, and differs
from every name in a generated struct that was not exported. A parameter keeps clear of the names
that bodies use. Both are valid identifiers whatever the name was (`isValid_exported`,
`isValid_param`), but a name may leave a parameter nothing but an underscore. Names that have what
is asked of them already are left alone, and no others (`sanitize_eq_self_iff`,
`exported_eq_self_iff`, `param_eq_self_iff`), so a second pass changes nothing. -/

namespace GoBindings.Identifier

/-- A capital letter of ASCII comes first. -/
def StartsUpper (name : String) : Prop := ∃ c cs, name.toList = c :: cs ∧ c.isUpper = true

theorem exists_sanitizeChars (cs : List Char) :
    ∃ c rest, sanitizeChars cs = c :: rest ∧ (c = '_' ∨ c.isAlpha = true) := by
  unfold sanitizeChars
  cases cs with
  | nil => exact ⟨'_', [], rfl, Or.inl rfl⟩
  | cons c cs =>
    rw [List.map_cons]
    by_cases hpart : isPart c = true
    · rw [if_pos hpart]
      by_cases hdigit : c.isDigit = true
      · exact ⟨'_', _, if_pos hdigit, Or.inl rfl⟩
      · refine ⟨c, _, if_neg hdigit, ?_⟩
        have hsplit : (c.isAlpha || c.isDigit || c == '_') = true := hpart
        simpa [hdigit, or_comm] using hsplit
    · rw [if_neg hpart]
      exact ⟨'_', _, rfl, Or.inl rfl⟩

theorem toList_sanitize (name : String) : (sanitize name).toList = sanitizeChars name.toList :=
  String.toList_ofList

theorem isPart_of_isAlpha {c : Char} (h : c.isAlpha = true) : isPart c = true := by
  show ((c.isAlpha || c.isDigit) || c == '_') = true
  rw [h, Bool.true_or, Bool.true_or]

theorem toNat_lt_of_isPart {c : Char} (h : isPart c = true) : c.toNat < 0x80 := by
  have hranges : ((decide ('A'.val ≤ c.val ∧ c.val ≤ 'Z'.val) ||
      decide ('a'.val ≤ c.val) && decide (c.val ≤ 'z'.val)) ||
      decide ('0'.val ≤ c.val) && decide (c.val ≤ '9'.val) || c == '_') = true := h
  simp only [Bool.or_eq_true, Bool.and_eq_true, decide_eq_true_eq, UInt32.le_iff_toNat_le,
    beq_iff_eq] at hranges
  have hc : c.toNat = c.val.toNat := rfl
  have hZ : 'Z'.val.toNat = 90 := rfl
  have hz : 'z'.val.toNat = 122 := rfl
  have h9 : '9'.val.toNat = 57 := rfl
  rcases hranges with ((h | h) | h) | rfl
  · omega
  · omega
  · omega
  · decide

/-- The characters of identifiers are so few that all of them can be tried. -/
theorem of_isPart {P : Char → Prop}
    (hall : ∀ n < 0x80, isPart (Char.ofNat n) = true → P (Char.ofNat n)) {c : Char}
    (h : isPart c = true) : P c := by
  have hbound := toNat_lt_of_isPart h
  have hself : Char.ofNat c.toNat = c := Char.ofNat_toNat c
  rw [← hself] at h ⊢
  exact hall c.toNat hbound h

/-- The case table is for other characters than those of identifiers. -/
theorem upperChar_of_isPart {c : Char} (h : isPart c = true) :
    Text.upperChar c = [c.toUpper] ∧ isPart c.toUpper = true ∧
      (c.isAlpha = true → c.toUpper.isUpper = true) := by
  refine ⟨if_pos (toNat_lt_of_isPart h), ?_⟩
  exact of_isPart (P := fun c => isPart c.toUpper = true ∧
    (c.isAlpha = true → c.toUpper.isUpper = true)) (by decide) h

theorem toList_exported {name : String} {c : Char} {cs : List Char}
    (h : sanitizeChars name.toList = c :: cs) (hc : c = '_' ∨ c.isAlpha = true) :
    (exported name).toList = if c = '_' then 'X' :: '_' :: cs else c.toUpper :: cs := by
  have hplain : (sanitize name).toList = c :: cs := (toList_sanitize name).trans h
  simp only [exported, hplain, List.head?_cons, Option.some.injEq]
  split
  · next hunder => rw [String.toList_append, hplain, hunder]; rfl
  · next hother =>
    have himage := (upperChar_of_isPart (isPart_of_isAlpha (hc.resolve_left hother))).1
    rw [capitalize, String.toList_ofList, hplain, Text.upperFirst, himage]
    rfl

theorem startsUpper_exported (name : String) : StartsUpper (exported name) := by
  obtain ⟨c, cs, hplain, hc⟩ := exists_sanitizeChars name.toList
  have hchars := toList_exported hplain hc
  split at hchars
  · exact ⟨'X', '_' :: cs, hchars, rfl⟩
  · next hother =>
    have halpha := hc.resolve_left hother
    exact ⟨c.toUpper, cs, hchars, (upperChar_of_isPart (isPart_of_isAlpha halpha)).2.2 halpha⟩

theorem StartsUpper.ne {name other : String} (h : StartsUpper name)
    (hother : (other.toList.head?.map Char.isUpper) = some false) : name ≠ other := by
  rintro rfl
  obtain ⟨c, cs, hcs, hc⟩ := h
  rw [hcs, List.head?_cons, Option.map_some, hc] at hother
  exact absurd hother (by decide)

/-! ## Parameters -/

/-- A parameter never has a name that bodies use themselves: such a name gets an underscore, and
    none of them starts with one. -/
theorem param_not_mem_reservedLocals (name : String) : param name ∉ reservedLocals := by
  have hplain : ∀ other ∈ reservedLocals, other.toList.head? ≠ some '_' := by decide
  simp only [param]
  split
  · intro hmem
    exact hplain _ hmem (by simp)
  · next hfree =>
    simp only [Bool.or_eq_true, not_or, List.contains_iff_mem] at hfree
    exact hfree.2

/-! ## Valid names -/

theorem isValid_iff {name : String} :
    isValid name = true ↔ ∃ c cs, name.toList = c :: cs ∧ (c.isAlpha = true ∨ c = '_') ∧
      (∀ d ∈ cs, isPart d = true) ∧ name ∉ keywords := by
  unfold isValid
  cases name.toList with
  | nil => simp
  | cons c cs => simp [and_assoc]

theorem isAlpha_of_isUpper {c : Char} (h : c.isUpper = true) : c.isAlpha = true := by
  show (c.isUpper || c.isLower) = true
  rw [h, Bool.true_or]

/-- Every keyword is made of small letters, so a capital letter or an underscore rules it out. -/
theorem not_mem_keywords_of_head {name : String} {c : Char} (hhead : name.toList.head? = some c)
    (hc : c.isLower = false) : name ∉ keywords := by
  have hall : ∀ word ∈ keywords, word.toList.head?.map Char.isLower = some true := by decide
  intro hmem
  have hlower := hall name hmem
  rw [hhead, Option.map_some, hc] at hlower
  exact absurd hlower (by decide)

theorem isLower_eq_false_of_isUpper {c : Char} (h : c.isUpper = true) : c.isLower = false := by
  have hcapital : 'A'.val ≤ c.val ∧ c.val ≤ 'Z'.val := of_decide_eq_true h
  have hsmall : ¬ ('a'.val ≤ c.val ∧ c.val ≤ 'z'.val) := by
    rintro ⟨hge, -⟩
    exact absurd (UInt32.le_trans hge hcapital.2) (by decide)
  show (decide ('a'.val ≤ c.val) && decide (c.val ≤ 'z'.val)) = false
  rw [← Bool.decide_and]
  exact decide_eq_false hsmall

theorem isValid_of_upper_cons {name : String} {c : Char} {cs : List Char}
    (hname : name.toList = c :: cs) (hc : c.isUpper = true) (hcs : ∀ d ∈ cs, isPart d = true) :
    isValid name = true :=
  isValid_iff.2 ⟨c, cs, hname, Or.inl (isAlpha_of_isUpper hc), hcs,
    not_mem_keywords_of_head (by rw [hname, List.head?_cons]) (isLower_eq_false_of_isUpper hc)⟩

theorem isPart_of_mem_sanitizeChars {cs : List Char} {c : Char} (h : c ∈ sanitizeChars cs) :
    isPart c = true := by
  have hplain : ∀ d ∈ cs.map fun c => if isPart c then c else '_', isPart d = true := by
    intro d hd
    obtain ⟨e, -, rfl⟩ := List.mem_map.1 hd
    by_cases he : isPart e = true
    · rwa [if_pos he]
    · rw [if_neg he]
      rfl
  unfold sanitizeChars at h
  split at h
  · rw [List.mem_singleton.1 h]
    rfl
  · next first rest hsplit =>
    rw [hsplit] at hplain
    split at h
    · rcases List.mem_cons.1 h with rfl | h
      · rfl
      · exact hplain c h
    · exact hplain c h

/-- Every exported name is valid. -/
theorem isValid_exported (name : String) : isValid (exported name) = true := by
  obtain ⟨first, others, hchars, hupper⟩ := startsUpper_exported name
  have hparts : ∀ d ∈ (exported name).toList, isPart d = true := by
    obtain ⟨c, cs, hplain, hc⟩ := exists_sanitizeChars name.toList
    have hall : ∀ d ∈ c :: cs, isPart d = true := fun d hd =>
      isPart_of_mem_sanitizeChars (hplain ▸ hd)
    rw [toList_exported hplain hc]
    split
    · next hunder =>
      rintro d (_ | ⟨_, hd⟩)
      · rfl
      · exact hall d (hunder ▸ hd)
    · rintro d (_ | ⟨_, hd⟩)
      · exact (upperChar_of_isPart (hall c List.mem_cons_self)).2.1
      · exact hall d (List.mem_cons_of_mem c hd)
  rw [hchars] at hparts
  exact isValid_of_upper_cons hchars hupper fun d hd => hparts d (List.mem_cons_of_mem first hd)

/-- Every name of a parameter is valid. -/
theorem isValid_param (name : String) : isValid (param name) = true := by
  obtain ⟨c, cs, hplain, hc⟩ := exists_sanitizeChars name.toList
  have hall : ∀ d ∈ c :: cs, isPart d = true := fun d hd =>
    isPart_of_mem_sanitizeChars (hplain ▸ hd)
  have hchars : (sanitize name).toList = c :: cs := by
    rw [toList_sanitize, hplain]
  unfold param
  dsimp only
  split
  · have hunderscore : ("_" ++ sanitize name).toList = '_' :: c :: cs := by
      rw [String.toList_append, hchars]
      rfl
    refine isValid_iff.2 ⟨'_', c :: cs, hunderscore, Or.inr rfl, hall, ?_⟩
    exact not_mem_keywords_of_head (by rw [hunderscore, List.head?_cons]) rfl
  · next hfree =>
    simp only [Bool.or_eq_true, not_or, List.contains_iff_mem] at hfree
    refine isValid_iff.2 ⟨c, cs, hchars, hc.symm, ?_, hfree.1⟩
    exact fun d hd => hall d (List.mem_cons_of_mem c hd)

/-- A name of which nothing is left but one underscore: it has no characters, or a single one that
    is neither a letter nor a digit of ASCII. -/
def IsBlank (name : String) : Prop :=
  name.toList = [] ∨ ∃ c, name.toList = [c] ∧ c.isAlphanum = false

theorem sanitizeChars_eq_underscore_iff {cs : List Char} :
    sanitizeChars cs = ['_'] ↔ cs = [] ∨ ∃ c, cs = [c] ∧ c.isAlphanum = false := by
  cases cs with
  | nil => simp [sanitizeChars]
  | cons c cs =>
    have hpart : isPart c = (c.isAlphanum || c == '_') := rfl
    have hunderscore : '_'.isAlphanum = false := by decide
    have hdigit : c.isAlphanum = false → c.isDigit = false := by
      intro h
      have hsplit : (c.isAlpha || c.isDigit) = false := h
      exact (Bool.or_eq_false_iff.1 hsplit).2
    unfold sanitizeChars
    rw [List.map_cons]
    by_cases hc : c.isAlphanum = true
    · rw [if_pos (by rw [hpart, hc, Bool.true_or])]
      have hne : c ≠ '_' := by
        rintro rfl
        exact absurd hc (by decide)
      dsimp only
      split <;> simp [hne, hc]
    · have hc : c.isAlphanum = false := by simpa using hc
      have himage : (if isPart c then c else '_') = '_' := by
        rw [hpart, hc, Bool.false_or]
        split
        · next heq => exact eq_of_beq heq
        · rfl
      rw [himage]
      dsimp only
      rw [if_neg (by decide)]
      simp [hc]

/-- A parameter is the blank identifier only if its name is blank. -/
theorem param_eq_underscore_iff {name : String} : param name = "_" ↔ IsBlank name := by
  obtain ⟨c, cs, hplain, -⟩ := exists_sanitizeChars name.toList
  have hlist : sanitize name = "_" ↔ sanitizeChars name.toList = ['_'] := by
    rw [← String.toList_inj, toList_sanitize]
    rfl
  rw [IsBlank, ← sanitizeChars_eq_underscore_iff, ← hlist]
  unfold param
  dsimp only
  split
  · next hreserved =>
    -- a name that gets an underscore has characters of its own
    have hne : "_" ++ sanitize name ≠ "_" := by
      intro heq
      have hlength := congrArg (fun s => s.toList.length) heq
      simp [sanitize, hplain] at hlength
    have hplain : sanitize name ≠ "_" := by
      intro heq
      rw [heq] at hreserved
      exact absurd hreserved (by decide)
    exact iff_of_false hne hplain
  · exact Iff.rfl

instance : DecidablePred IsBlank := fun name =>
  decidable_of_iff (param name = "_") param_eq_underscore_iff

/-! ## Names made from valid names -/

theorem isPart_of_isValid {name : String} (h : isValid name = true) :
    ∀ c ∈ name.toList, isPart c = true := by
  obtain ⟨c, cs, hname, hc, hcs, -⟩ := isValid_iff.1 h
  rw [hname]
  rintro d (_ | ⟨_, hd⟩)
  · rcases hc with hc | rfl
    · exact isPart_of_isAlpha hc
    · rfl
  · exact hcs d hd

/-- Upper case changes the letters of an identifier into capital ones, and nothing else. -/
theorem upper_eq_map {cs : List Char} (h : ∀ c ∈ cs, isPart c = true) :
    Text.upper cs = cs.map Char.toUpper := by
  induction cs with
  | nil => rfl
  | cons c cs ih =>
    rw [List.forall_mem_cons] at h
    rw [List.map_cons, ← ih h.2, Text.upper, List.flatMap_cons, (upperChar_of_isPart h.1).1]
    rfl

theorem isPart_of_mem_upper {cs : List Char} (h : ∀ c ∈ cs, isPart c = true) {d : Char}
    (hd : d ∈ Text.upper cs) : isPart d = true := by
  rw [upper_eq_map h] at hd
  obtain ⟨c, hc, rfl⟩ := List.mem_map.1 hd
  exact (upperChar_of_isPart (h c hc)).2.1

/-- Constants of a type with a valid name have valid names, whatever their values are. -/
theorem isValid_enumConstant {type : String} (h : isValid type = true) (value : String) :
    isValid (enumConstant type value) = true := by
  have htype := isPart_of_isValid h
  obtain ⟨c, cs, hchars, hc, hcs, -⟩ := isValid_iff.1 h
  have hvalue : ∀ d ∈ value.toList.map fun c => if c.isAlphanum then c else '_',
      isPart d = true := by
    intro d hd
    obtain ⟨e, -, rfl⟩ := List.mem_map.1 hd
    split
    · next he => exact Bool.or_eq_true_iff.2 (Or.inl he)
    · rfl
  have hname : (enumConstant type value).toList = c.toUpper ::
      (Text.upper cs ++ '_' :: Text.upper (value.toList.map fun c =>
        if c.isAlphanum then c else '_')) := by
    have hcpart : isPart c = true := htype c (hchars ▸ List.mem_cons_self)
    rw [enumConstant, String.toList_ofList, hchars, Text.upper, List.flatMap_cons,
      (upperChar_of_isPart hcpart).1]
    rfl
  refine isValid_iff.2 ⟨_, _, hname, ?_, ?_, ?_⟩
  · rcases hc with halpha | rfl
    · exact Or.inl (isAlpha_of_isUpper
        ((upperChar_of_isPart (isPart_of_isAlpha halpha)).2.2 halpha))
    · exact Or.inr rfl
  · intro d hd
    rcases List.mem_append.1 hd with hd | hd
    · exact isPart_of_mem_upper hcs hd
    rcases List.mem_cons.1 hd with rfl | hd
    · rfl
    · exact isPart_of_mem_upper hvalue hd
  · -- no keyword has an underscore
    have hall : ∀ word ∈ keywords, '_' ∉ word.toList := by decide
    intro hmem
    refine hall _ hmem ?_
    rw [hname]
    simp

/-! ## Names that are left alone -/

/-- Letters, digits and underscores of ASCII, at least one of them, and no digit first. -/
def IsPlain (name : String) : Prop :=
  ∃ c cs, name.toList = c :: cs ∧ c.isDigit = false ∧ ∀ d ∈ c :: cs, isPart d = true

theorem isDigit_eq_false_of_isAlpha {c : Char} (h : c.isAlpha = true) : c.isDigit = false :=
  of_isPart (P := fun c => c.isAlpha = true → c.isDigit = false) (by decide)
    (isPart_of_isAlpha h) h

theorem toUpper_eq_self_of_isUpper {c : Char} (h : c.isUpper = true) : c.toUpper = c :=
  of_isPart (P := fun c => c.isUpper = true → c.toUpper = c) (by decide)
    (isPart_of_isAlpha (isAlpha_of_isUpper h)) h

theorem isPlain_of_isValid {name : String} (h : isValid name = true) : IsPlain name := by
  obtain ⟨c, cs, hname, hc, -⟩ := isValid_iff.1 h
  refine ⟨c, cs, hname, ?_, hname ▸ isPart_of_isValid h⟩
  rcases hc with halpha | rfl
  · exact isDigit_eq_false_of_isAlpha halpha
  · rfl

/-- Exactly the names in the alphabet of identifiers are left alone. -/
theorem sanitize_eq_self_iff {name : String} : sanitize name = name ↔ IsPlain name := by
  constructor
  · intro h
    obtain ⟨c, cs, hplain, hc⟩ := exists_sanitizeChars name.toList
    have hname : name.toList = c :: cs := by
      rw [← hplain, ← toList_sanitize, h]
    refine ⟨c, cs, hname, ?_, fun d hd => isPart_of_mem_sanitizeChars (hplain ▸ hd)⟩
    rcases hc with rfl | halpha
    · rfl
    · exact isDigit_eq_false_of_isAlpha halpha
  · rintro ⟨c, cs, hname, hdigit, hparts⟩
    have hsame : ((c :: cs).map fun d => if isPart d then d else '_') = c :: cs :=
      (List.map_congr_left fun d hd => if_pos (hparts d hd)).trans (List.map_id' (c :: cs))
    have hchars : sanitizeChars (c :: cs) = c :: cs := by
      rw [sanitizeChars, hsame]
      exact if_neg (by simp [hdigit])
    rw [sanitize, hname, hchars, ← hname, String.ofList_toList]

theorem exported_eq_self_iff {name : String} :
    exported name = name ↔ isValid name = true ∧ StartsUpper name := by
  constructor
  · intro h
    exact ⟨h ▸ isValid_exported name, h ▸ startsUpper_exported name⟩
  · rintro ⟨hvalid, c, cs, hname, hupper⟩
    have hchars : sanitizeChars name.toList = c :: cs := by
      rw [← toList_sanitize, sanitize_eq_self_iff.2 (isPlain_of_isValid hvalid), hname]
    have hunder : c ≠ '_' := by
      rintro rfl
      exact absurd hupper (by decide)
    apply String.toList_inj.1
    rw [toList_exported hchars (Or.inr (isAlpha_of_isUpper hupper)), if_neg hunder,
      toUpper_eq_self_of_isUpper hupper, hname]

theorem param_eq_self_iff {name : String} :
    param name = name ↔ isValid name = true ∧ name ∉ reservedLocals := by
  constructor
  · intro h
    exact ⟨h ▸ isValid_param name, h ▸ param_not_mem_reservedLocals name⟩
  · rintro ⟨hvalid, hfree⟩
    obtain ⟨-, -, -, -, -, hword⟩ := isValid_iff.1 hvalid
    have hsame := sanitize_eq_self_iff.2 (isPlain_of_isValid hvalid)
    simp [param, hsame, hfree, hword]

/-- **Names are settled at once.** Whatever a name is, the exported one is a valid identifier with a
    capital letter of ASCII first, and that of a parameter is a valid identifier, no keyword and
    none of the names that bodies use. Names like these are left alone, and no others, so both stay
    as they are when they are made again. Nothing is put in place of other characters exactly in the
    names that are plain. -/
theorem names_settled_at_once (name : String) :
    (isValid (exported name) = true ∧ StartsUpper (exported name) ∧
      exported (exported name) = exported name ∧
      (exported name = name ↔ isValid name = true ∧ StartsUpper name)) ∧
    (isValid (param name) = true ∧ param name ∉ keywords ∧ param name ∉ reservedLocals ∧
      param (param name) = param name ∧
      (param name = name ↔ isValid name = true ∧ name ∉ reservedLocals)) ∧
    (sanitize name = name ↔ IsPlain name) := by
  have hexported := isValid_exported name
  have hparam := isValid_param name
  have hupper := startsUpper_exported name
  have hfree := param_not_mem_reservedLocals name
  obtain ⟨-, -, -, -, -, hword⟩ := isValid_iff.1 hparam
  exact ⟨⟨hexported, hupper, exported_eq_self_iff.2 ⟨hexported, hupper⟩, exported_eq_self_iff⟩,
    ⟨hparam, hword, hfree, param_eq_self_iff.2 ⟨hparam, hfree⟩, param_eq_self_iff⟩,
    sanitize_eq_self_iff⟩

end GoBindings.Identifier
