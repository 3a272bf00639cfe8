import GoBindings.Proofs.LineFilling

set_option autoImplicit false

/-! # What is left of the markup

One removal is described by three equations, for the end of the text, for an occurrence of the mark
and for any other character (`replaceAfter_induction` goes along them). A removal makes a text that
has the mark shorter and leaves any other alone, so cleaning changes exactly the texts that have a
mark (`clean_eq_self_iff`). Marks have no blank in them. So each word is cleaned by itself
(`words_clean`), and a mark that stands in a line stands in a word.

Cleaning once is not always enough: where a mark was taken out, the characters around it come
together, and these can be another mark, or the same. A text has such a place exactly if cleaning it
a second time changes it again. -/

namespace GoBindings

/-! ## Texts cut at blanks -/

namespace Text

theorem induction_on_blanks {motive : List Char → Prop}
    (plain : ∀ cs, (∀ c ∈ cs, isBlank c = false) → motive cs)
    (blank : ∀ xs c ys, isBlank c = true → motive xs → motive ys → motive (xs ++ c :: ys))
    (cs : List Char) : motive cs := by
  -- `front` is the part of the text without a blank that has been passed
  have hfrom : ∀ cs front : List Char, (∀ c ∈ front, isBlank c = false) → motive (front ++ cs) := by
    intro cs
    induction cs with
    | nil =>
      intro front hfront
      rw [List.append_nil]
      exact plain front hfront
    | cons c cs ih =>
      intro front hfront
      by_cases hc : isBlank c = true
      · exact blank front c cs hc (plain front hfront) (ih [] (by simp))
      · have hgrow : ∀ d ∈ front ++ [c], isBlank d = false := by
          intro d hd
          rcases List.mem_append.1 hd with hd | hd
          · exact hfront d hd
          · rw [List.mem_singleton.1 hd]
            simpa using hc
        simpa using ih (front ++ [c]) hgrow
  exact hfrom cs [] (by simp)

/-- What holds no blank stands on one side of it. -/
theorem infix_append_cons_iff {m xs ys : List Char} {c : Char} (hm : Solid m)
    (hc : isBlank c = true) : m <:+: xs ++ c :: ys ↔ m <:+: xs ∨ m <:+: ys := by
  have hstart : ∀ part : List Char, part ≠ [] → part <:+: m → ¬ part <+: c :: ys := by
    intro part hpart hin hstart
    obtain ⟨d, rest, rfl⟩ := List.exists_cons_of_ne_nil hpart
    obtain ⟨rfl, -⟩ := List.cons_prefix_cons.1 hstart
    have hmem : d ∈ m := hin.subset List.mem_cons_self
    rw [hm.no_blank d hmem] at hc
    exact absurd hc Bool.false_ne_true
  rw [List.infix_append_iff_ne_nil, List.infix_cons_iff]
  constructor
  · rintro (hxs | (hstarts | hys) | ⟨front, back, -, hback, rfl, -, hbegins⟩)
    · exact Or.inl hxs
    · exact absurd hstarts (hstart m hm.ne_nil (List.infix_refl m))
    · exact Or.inr hys
    · exact absurd hbegins (hstart back hback List.infix_append_right)
  · rintro (hxs | hys)
    · exact Or.inl hxs
    · exact Or.inr (Or.inl (Or.inr hys))

theorem infix_iff_exists_word {m : List Char} (hm : Solid m) (cs : List Char) :
    m <:+: cs ↔ ∃ w ∈ words cs, m <:+: w := by
  induction cs using induction_on_blanks with
  | plain cs hcs =>
    by_cases hne : cs = []
    · subst hne
      simp [hm.ne_nil]
    · rw [words_of_solid ⟨hne, hcs⟩]
      simp
  | blank xs c ys hc ihx ihy =>
    rw [infix_append_cons_iff hm hc, words_append_cons hc, ihx, ihy]
    simp only [List.mem_append, or_and_right, exists_or]

end Text

open Text

namespace DocText

/-! ## One removal -/

section Replace

variable {old new : List Char}

theorem replaceAfter_eq_drop (skip : Nat) (cs : List Char) :
    replaceAfter skip old new cs = replaceAfter 0 old new (cs.drop skip) := by
  induction cs generalizing skip with
  | nil => simp [replaceAfter]
  | cons c cs ih =>
    cases skip with
    | zero => rfl
    | succ skip => rw [replaceAfter, ih, List.drop_succ_cons]

theorem replaceAfter_mark (hold : old ≠ []) (rest : List Char) :
    replaceAfter 0 old new (old ++ rest) = new ++ replaceAfter 0 old new rest := by
  obtain ⟨c, tail, rfl⟩ := List.exists_cons_of_ne_nil hold
  have hbegins : (c :: tail).isPrefixOf (c :: (tail ++ rest)) = true :=
    List.isPrefixOf_iff_prefix.2 (List.prefix_append (c :: tail) rest)
  rw [List.cons_append, replaceAfter, if_pos hbegins, replaceAfter_eq_drop]
  simp

theorem replaceAfter_char {c : Char} {cs : List Char} (h : ¬ old <+: c :: cs) :
    replaceAfter 0 old new (c :: cs) = c :: replaceAfter 0 old new cs := by
  rw [replaceAfter, if_neg (mt List.isPrefixOf_iff_prefix.1 h)]

/-- A text is gone through by occurrences of a mark and single characters. -/
theorem replaceAfter_induction {motive : List Char → Prop} (hold : old ≠ []) (nil : motive [])
    (mark : ∀ rest, motive rest → motive (old ++ rest))
    (char : ∀ c cs, ¬ old <+: c :: cs → motive cs → motive (c :: cs)) (cs : List Char) :
    motive cs := by
  induction hlength : cs.length using Nat.strongRecOn generalizing cs with
  | ind n ih =>
    by_cases hbegins : old <+: cs
    · obtain ⟨rest, rfl⟩ := hbegins
      have hpos := List.length_pos_iff.2 hold
      refine mark rest (ih rest.length ?_ rest rfl)
      rw [← hlength, List.length_append]
      omega
    · cases cs with
      | nil => exact nil
      | cons c cs =>
        refine char c cs hbegins (ih cs.length ?_ cs rfl)
        rw [← hlength, List.length_cons]
        omega

theorem mem_replaceAfter (hold : old ≠ []) {cs : List Char} {c : Char}
    (h : c ∈ replaceAfter 0 old new cs) : c ∈ new ∨ c ∈ cs := by
  induction cs using replaceAfter_induction hold with
  | nil => exact absurd h List.not_mem_nil
  | mark rest ih =>
    rw [replaceAfter_mark hold, List.mem_append] at h
    rcases h with h | h
    · exact Or.inl h
    · exact (ih h).imp_right (List.mem_append_right old)
  | char d cs hd ih =>
    rw [replaceAfter_char hd, List.mem_cons] at h
    rcases h with rfl | h
    · exact Or.inr List.mem_cons_self
    · exact (ih h).imp_right (List.mem_cons_of_mem d)

theorem replaceAfter_of_not_infix (hold : old ≠ []) {cs : List Char} (h : ¬ old <:+: cs) :
    replaceAfter 0 old new cs = cs := by
  induction cs using replaceAfter_induction hold with
  | nil => rfl
  | mark rest _ => exact absurd List.infix_append_left h
  | char c cs hc ih =>
    rw [List.infix_cons_iff, not_or] at h
    rw [replaceAfter_char hc, ih h.2]

theorem length_replaceAfter_le (hold : old ≠ []) (hnew : new.length < old.length) (cs : List Char) :
    (replaceAfter 0 old new cs).length ≤ cs.length := by
  induction cs using replaceAfter_induction hold with
  | nil => exact Nat.le_refl _
  | mark rest ih =>
    rw [replaceAfter_mark hold, List.length_append, List.length_append]
    omega
  | char c cs hc ih =>
    rw [replaceAfter_char hc, List.length_cons, List.length_cons]
    omega

theorem length_replaceAfter_lt (hold : old ≠ []) (hnew : new.length < old.length) {cs : List Char}
    (h : old <:+: cs) : (replaceAfter 0 old new cs).length < cs.length := by
  induction cs using replaceAfter_induction hold with
  | nil => exact absurd (List.infix_nil.1 h) hold
  | mark rest _ =>
    have hrest := length_replaceAfter_le hold hnew rest
    rw [replaceAfter_mark hold, List.length_append, List.length_append]
    omega
  | char c cs hc ih =>
    rw [replaceAfter_char hc, List.length_cons, List.length_cons]
    have hcs := ih ((List.infix_cons_iff.1 h).resolve_left hc)
    omega

/-- A character that a mark does not have keeps the texts around it apart. -/
theorem replaceAfter_append_cons (hold : old ≠ []) {c : Char} (hc : c ∉ old) (xs ys : List Char) :
    replaceAfter 0 old new (xs ++ c :: ys)
      = replaceAfter 0 old new xs ++ c :: replaceAfter 0 old new ys := by
  induction xs using replaceAfter_induction hold with
  | nil =>
    have hstart : ¬ old <+: c :: ys := by
      intro hbegins
      obtain ⟨d, tail, rfl⟩ := List.exists_cons_of_ne_nil hold
      obtain ⟨rfl, -⟩ := List.cons_prefix_cons.1 hbegins
      exact hc List.mem_cons_self
    rw [List.nil_append, replaceAfter_char hstart]
    rfl
  | mark rest ih =>
    rw [List.append_assoc, replaceAfter_mark hold, ih, replaceAfter_mark hold, List.append_assoc]
  | char d xs hd ih =>
    have hstart : ¬ old <+: d :: (xs ++ c :: ys) := by
      intro hbegins
      rw [← List.cons_append] at hbegins
      rcases List.prefix_or_prefix_of_prefix hbegins (List.prefix_append (d :: xs) (c :: ys)) with
        hshort | ⟨back, hback⟩
      · exact hd hshort
      · rw [← hback, List.prefix_append_right_inj] at hbegins
        by_cases hnil : back = []
        · exact hd ⟨[], by rw [← hback, hnil]; simp⟩
        · obtain ⟨e, tail, rfl⟩ := List.exists_cons_of_ne_nil hnil
          obtain ⟨rfl, -⟩ := List.cons_prefix_cons.1 hbegins
          exact hc (hback ▸ List.mem_append_right _ List.mem_cons_self)
    rw [List.cons_append, replaceAfter_char hstart, ih, replaceAfter_char hd, List.cons_append]

end Replace

/-! ## All removals -/

/-- A mark has no blank in it, and what stands for it is shorter and has none either. -/
structure Proper (mark : String × String) : Prop where
  solid : Solid mark.1.toList
  shorter : mark.2.toList.length < mark.1.toList.length
  no_blank : ∀ c ∈ mark.2.toList, isBlank c = false

theorem proper_of_mem_markup {mark : String × String} (h : mark ∈ markup) : Proper mark := by
  have hall : markup.all (fun mark => !mark.1.toList.isEmpty
      && mark.1.toList.all (fun c => !isBlank c)
      && mark.2.toList.length < mark.1.toList.length
      && mark.2.toList.all fun c => !isBlank c) = true := by rfl
  have hmark := List.all_eq_true.1 hall mark h
  simp only [Bool.and_eq_true, Bool.not_eq_true', decide_eq_true_eq, List.all_eq_true,
    List.isEmpty_eq_false_iff] at hmark
  exact ⟨⟨hmark.1.1.1, hmark.1.1.2⟩, hmark.1.2, hmark.2⟩

/-- The text without some marks, which are removed one after the other. -/
def strip (marks : List (String × String)) (cs : List Char) : List Char :=
  marks.foldl (fun cs mark => replaceAll mark.1 mark.2 cs) cs

section Strip

variable {marks : List (String × String)} (hproper : ∀ mark ∈ marks, Proper mark)
include hproper

theorem length_strip_le (cs : List Char) : (strip marks cs).length ≤ cs.length := by
  induction marks generalizing cs with
  | nil => exact Nat.le_refl _
  | cons mark marks ih =>
    rw [List.forall_mem_cons] at hproper
    obtain ⟨hmark, hrest⟩ := hproper
    calc (strip (mark :: marks) cs).length
        ≤ (replaceAll mark.1 mark.2 cs).length := ih hrest _
      _ ≤ cs.length := length_replaceAfter_le hmark.solid.ne_nil hmark.shorter cs

/-- Removing marks changes exactly the texts that have one. The first that is there makes the text
    shorter, and it stays so. -/
theorem strip_eq_self_iff (cs : List Char) :
    strip marks cs = cs ↔ ∀ mark ∈ marks, ¬ mark.1.toList <:+: cs := by
  induction marks with
  | nil => simp [strip]
  | cons mark marks ih =>
    rw [List.forall_mem_cons] at hproper
    obtain ⟨hmark, hrest⟩ := hproper
    have hcons : strip (mark :: marks) cs = strip marks (replaceAll mark.1 mark.2 cs) := rfl
    rw [hcons, List.forall_mem_cons]
    by_cases hin : mark.1.toList <:+: cs
    · refine iff_of_false ?_ fun h => h.1 hin
      intro hsame
      have hle := length_strip_le hrest (replaceAll mark.1 mark.2 cs)
      have hlt : (replaceAll mark.1 mark.2 cs).length < cs.length :=
        length_replaceAfter_lt hmark.solid.ne_nil hmark.shorter hin
      rw [hsame] at hle
      omega
    · have hsame : replaceAll mark.1 mark.2 cs = cs :=
        replaceAfter_of_not_infix hmark.solid.ne_nil hin
      rw [hsame, ih hrest]
      exact ⟨fun h => ⟨hin, h⟩, fun h => h.2⟩

theorem strip_append_cons {c : Char} (hc : isBlank c = true) (xs ys : List Char) :
    strip marks (xs ++ c :: ys) = strip marks xs ++ c :: strip marks ys := by
  induction marks generalizing xs ys with
  | nil => rfl
  | cons mark marks ih =>
    rw [List.forall_mem_cons] at hproper
    obtain ⟨hmark, hrest⟩ := hproper
    have hout : c ∉ mark.1.toList := by
      intro hmem
      rw [hmark.solid.no_blank c hmem] at hc
      exact absurd hc Bool.false_ne_true
    have hstep : replaceAll mark.1 mark.2 (xs ++ c :: ys)
        = replaceAll mark.1 mark.2 xs ++ c :: replaceAll mark.1 mark.2 ys :=
      replaceAfter_append_cons hmark.solid.ne_nil hout xs ys
    show strip marks (replaceAll mark.1 mark.2 (xs ++ c :: ys)) = _
    rw [hstep, ih hrest]
    rfl

theorem not_isBlank_of_mem_strip {cs : List Char} (h : ∀ c ∈ cs, isBlank c = false) :
    ∀ c ∈ strip marks cs, isBlank c = false := by
  refine List.foldlRecOn (motive := fun cs => ∀ c ∈ cs, isBlank c = false) marks _ h ?_
  intro cs hcs mark hmark c hc
  rcases mem_replaceAfter (hproper mark hmark).solid.ne_nil hc with hnew | hold
  · exact (hproper mark hmark).no_blank c hnew
  · exact hcs c hold

end Strip

/-- The text has none of the marks in it. -/
def MarkFree (cs : List Char) : Prop := ∀ mark ∈ markup, ¬ mark.1.toList <:+: cs

theorem markFree_nil : MarkFree [] := fun _ hmark hin =>
  (proper_of_mem_markup hmark).solid.ne_nil (List.infix_nil.1 hin)

theorem markFree_iff_words (cs : List Char) : MarkFree cs ↔ ∀ w ∈ words cs, MarkFree w := by
  constructor
  · intro h w hw mark hmark hin
    exact h mark hmark ((infix_iff_exists_word (proper_of_mem_markup hmark).solid cs).2 ⟨w, hw, hin⟩)
  · intro h mark hmark hin
    obtain ⟨w, hw, hin⟩ := (infix_iff_exists_word (proper_of_mem_markup hmark).solid cs).1 hin
    exact h w hw mark hmark hin

theorem clean_eq_self_iff (cs : List Char) : clean cs = cs ↔ MarkFree cs :=
  strip_eq_self_iff (fun _ => proper_of_mem_markup) cs

/-- **Each word is cleaned by itself.** One that was made of marks goes. -/
theorem words_clean (cs : List Char) :
    words (clean cs) = ((words cs).map clean).filter fun w => !w.isEmpty := by
  have hproper : ∀ mark ∈ markup, Proper mark := fun _ => proper_of_mem_markup
  have hnil : clean [] = [] := rfl
  induction cs using induction_on_blanks with
  | plain cs hcs =>
    by_cases hne : cs = []
    · subst hne
      simp [hnil]
    · rw [words_of_solid ⟨hne, hcs⟩]
      by_cases hclean : clean cs = []
      · simp [hclean]
      · rw [words_of_solid ⟨hclean, not_isBlank_of_mem_strip hproper hcs⟩]
        simp [hclean]
  | blank xs c ys hc ihx ihy =>
    have happend : clean (xs ++ c :: ys) = clean xs ++ c :: clean ys :=
      strip_append_cons hproper hc xs ys
    rw [happend, words_append_cons hc, words_append_cons hc, ihx, ihy, List.map_append,
      List.filter_append]

/-! ## Lines without markup -/

theorem markFree_lines_iff (raw : String) :
    (∀ line ∈ lines raw, MarkFree line.toList) ↔ ∀ w ∈ words (clean raw.toList), MarkFree w := by
  rw [← flatMap_words_lines, List.forall_mem_flatMap]
  exact forall₂_congr fun line _ => markFree_iff_words line.toList

theorem markFree_words_clean_iff (cs : List Char) :
    (∀ w ∈ words (clean cs), MarkFree w) ↔ ∀ w ∈ words cs, MarkFree (clean w) := by
  rw [words_clean]
  simp only [List.mem_filter, List.mem_map, Bool.not_eq_true', List.isEmpty_eq_false_iff, and_imp,
    forall_exists_index, forall_apply_eq_imp_iff₂]
  refine forall₂_congr fun w _ => ⟨fun h => ?_, fun h _ => h⟩
  by_cases hempty : clean w = []
  · rw [hempty]
    exact markFree_nil
  · exact h hempty

/-- Setting a line of a documentation text again gives it back, unless it has a mark. -/
theorem lines_eq_singleton_iff {raw line : String} (h : line ∈ lines raw) :
    lines line = [line] ↔ MarkFree line.toList := by
  constructor
  · intro hsame
    -- every word is a cleaned word, and as many are left as there were
    have hwords : words line.toList
        = ((words line.toList).map clean).filter fun w => !w.isEmpty := by
      rw [← words_clean, ← flatMap_words_lines, hsame]
      simp
    have hkept : ∀ w ∈ (words line.toList).map clean, (!w.isEmpty) = true := by
      rw [← List.length_filter_eq_length_iff, ← hwords, List.length_map]
    rw [List.filter_eq_self.2 hkept] at hwords
    rw [markFree_iff_words]
    intro w hw
    rw [← clean_eq_self_iff]
    have hmap : (words line.toList).map clean = (words line.toList).map id := by
      rw [List.map_id, ← hwords]
    exact List.map_inj_left.1 hmap w hw
  · intro hfree
    obtain ⟨out, hout, hmem⟩ : ∃ out, out ∈ ((clean raw.toList).splitOn '\n').map (fun text =>
        fill (words text)) ∧ line.toList ∈ out := by
      rw [← List.mem_flatten, ← map_toList_lines]
      exact List.mem_map_of_mem h
    obtain ⟨text, -, rfl⟩ := List.mem_map.1 hout
    have hfilled : Filled line.toList [line.toList] := (filled_iff.2 rfl).singleton hmem
    have hbreak : '\n' ∉ line.toList := by
      intro hin
      exact absurd (hfilled.unbroken _ List.mem_cons_self '\n' hin (by decide)) (by decide)
    rw [lines, (clean_eq_self_iff line.toList).2 hfree, List.splitOn_eq_singleton hbreak,
      List.flatMap_singleton, ← filled_iff.1 hfilled]
    simp

/-- **Lines are free of markup exactly if they stay as they are when set once more.** Whether they
    are is decided word by word: each word of the text has to be clean after being cleaned once. A
    text is changed only if it has markup. -/
theorem lines_free_of_markup_iff (raw : String) :
    ((∀ line ∈ lines raw, MarkFree line.toList) ↔ ∀ line ∈ lines raw, lines line = [line]) ∧
      ((∀ line ∈ lines raw, MarkFree line.toList) ↔
        ∀ w ∈ words raw.toList, clean (clean w) = clean w) ∧
      (clean raw.toList = raw.toList ↔ MarkFree raw.toList) := by
  refine ⟨?_, ?_, clean_eq_self_iff raw.toList⟩
  · exact forall₂_congr fun line hline => (lines_eq_singleton_iff hline).symm
  · rw [markFree_lines_iff, markFree_words_clean_iff]
    exact forall₂_congr fun w _ => (clean_eq_self_iff (clean w)).symm

/-- With `:term:` gone, what is left around it is a role that was looked for before. -/
theorem player_role_left_over :
    lines ":rom:cl:term:s:`Player`" = [":rom:cls:`Player`"] ∧
      ¬ ∀ line ∈ lines ":rom:cl:term:s:`Player`", MarkFree line.toList := by
  have hlines : lines ":rom:cl:term:s:`Player`" = [":rom:cls:`Player`"] := by decide
  refine ⟨hlines, ?_⟩
  rw [hlines]
  intro hfree
  refine hfree ":rom:cls:`Player`" List.mem_cons_self (":rom:cls:", "") (by decide) ?_
  exact ⟨[], "`Player`".toList, by decide⟩

end DocText

end GoBindings
