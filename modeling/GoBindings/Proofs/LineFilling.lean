import GoBindings.Proofs.CodeLines
import Mathlib.Data.List.Chain
import Mathlib.Data.List.Forall2

set_option autoImplicit false

/-! # Filling lines

Words come out of a text by one rule: a blank cuts the text in two whose words can be looked at
apart (`Text.words_append_cons`). What `fill` makes of words is described by cutting their list into
groups, one for each line (`Layout`). Every list of words has such a layout, and `fill` prints it
whatever it is (`fill_flatten`); so there is only one, and all that a layout promises holds of the
lines of a documentation text: words are kept in their order, lines are within the width, and a line
ends only where the next word would not fit. -/

namespace GoBindings

/-! ## Words -/

namespace Text

/-- Characters, at least one of them and none of them blank. -/
structure Solid (w : List Char) : Prop where
  ne_nil : w ≠ []
  no_blank : ∀ c ∈ w, isBlank c = false

theorem solid_of_mem_words {cs w : List Char} (h : w ∈ words cs) : Solid w :=
  ⟨by simpa using (List.mem_filter.1 h).2, not_isBlank_of_mem_words h⟩

@[simp]
theorem words_nil : words [] = [] := by simp [words]

/-- A blank ends a word, so the texts around it have their words apart. -/
theorem words_append_cons {c : Char} (hc : isBlank c = true) (xs ys : List Char) :
    words (xs ++ c :: ys) = words xs ++ words ys := by
  unfold words
  rw [List.splitOnP_append_cons xs ys hc, List.filter_append]

theorem words_of_solid {w : List Char} (h : Solid w) : words w = [w] := by
  unfold words
  rw [List.splitOnP_eq_singleton h.no_blank]
  simp [h.ne_nil]

theorem words_intercalate {c : Char} (hc : isBlank c = true) (pieces : List (List Char)) :
    words ([c].intercalate pieces) = pieces.flatMap words := by
  induction pieces with
  | nil => simp
  | cons piece pieces ih =>
    cases pieces with
    | nil => simp
    | cons next pieces =>
      rw [List.intercalate_cons_cons, List.append_assoc, List.singleton_append,
        words_append_cons hc, ih]
      rfl

/-- A text has the words of its lines. -/
theorem flatMap_words_splitOn (cs : List Char) :
    (cs.splitOn '\n').flatMap words = words cs := by
  have hbreak : isBlank '\n' = true := by decide
  rw [← words_intercalate hbreak, List.intercalate_splitOn]

/-- Words with single spaces between them. -/
def unwords (ws : List (List Char)) : List Char := [' '].intercalate ws

@[simp]
theorem unwords_singleton (w : List Char) : unwords [w] = w := List.intercalate_singleton

theorem unwords_append {front back : List (List Char)} (hfront : front ≠ []) (hback : back ≠ []) :
    unwords (front ++ back) = unwords front ++ ' ' :: unwords back := by
  induction front with
  | nil => exact absurd rfl hfront
  | cons w front ih =>
    cases front with
    | nil => simp [unwords, List.intercalate_cons_of_ne_nil hback]
    | cons v front =>
      have hne : v :: front ≠ [] := List.cons_ne_nil v front
      have happend : v :: front ++ back ≠ [] := List.append_ne_nil_of_left_ne_nil hne back
      have hrest := ih hne
      unfold unwords at hrest ⊢
      rw [List.cons_append, List.intercalate_cons_of_ne_nil happend,
        List.intercalate_cons_of_ne_nil hne, hrest]
      simp

theorem words_unwords {ws : List (List Char)} (h : ∀ w ∈ ws, Solid w) : words (unwords ws) = ws := by
  have hspace : isBlank ' ' = true := by decide
  rw [unwords, words_intercalate hspace]
  induction ws with
  | nil => rfl
  | cons w ws ih =>
    rw [List.forall_mem_cons] at h
    rw [List.flatMap_cons, words_of_solid h.1, ih h.2, List.singleton_append]

theorem mem_unwords {ws : List (List Char)} {c : Char} (h : c ∈ unwords ws) :
    c = ' ' ∨ ∃ w ∈ ws, c ∈ w := by
  induction ws with
  | nil => exact absurd h List.not_mem_nil
  | cons w ws ih =>
    by_cases hws : ws = []
    · subst hws
      rw [unwords_singleton] at h
      exact Or.inr ⟨w, List.mem_cons_self, h⟩
    · rw [← List.singleton_append, unwords_append (by simp) hws, unwords_singleton,
        List.mem_append, List.mem_cons] at h
      rcases h with hw | hspace | hrest
      · exact Or.inr ⟨w, List.mem_cons_self, hw⟩
      · exact Or.inl hspace
      · rcases ih hrest with hspace | ⟨v, hv, hcv⟩
        · exact Or.inl hspace
        · exact Or.inr ⟨v, List.mem_cons_of_mem w hv, hcv⟩

theorem unwords_ne_nil {ws : List (List Char)} (hne : ws ≠ []) (h : ∀ w ∈ ws, Solid w) :
    unwords ws ≠ [] := by
  intro hnil
  have hwords := words_unwords h
  rw [hnil, words_nil] at hwords
  exact hne hwords.symm

end Text

open Text

namespace DocText

/-! ## Layouts -/

/-- Groups of words, each for one line: a line of several words is within the width, and the first
    word of the next line would not have been. -/
structure Layout (groups : List (List (List Char))) : Prop where
  ne_nil : ∀ g ∈ groups, g ≠ []
  fits : ∀ g ∈ groups, (unwords g).length ≤ width ∨ ∃ w, g = [w]
  full : groups.IsChain fun g next =>
    ∃ w rest, next = w :: rest ∧ width < (unwords g).length + 1 + w.length

theorem Layout.tail {g : List (List Char)} {groups : List (List (List Char))}
    (h : Layout (g :: groups)) : Layout groups where
  ne_nil := (List.forall_mem_cons.1 h.ne_nil).2
  fits := (List.forall_mem_cons.1 h.fits).2
  full := h.full.tail

/-- The words of a line that is within the width go on it one after the other. -/
theorem fillFrom_append {g rest : List (List Char)} (hg : g ≠ [])
    (hfits : (unwords (g ++ rest)).length ≤ width ∨ ∃ w, g ++ rest = [w])
    (ws : List (List Char)) :
    fillFrom (unwords g) (rest ++ ws) = fillFrom (unwords (g ++ rest)) ws := by
  induction rest generalizing g with
  | nil => simp
  | cons w rest ih =>
    have hgrow : g ++ w :: rest = g ++ [w] ++ rest := by simp
    have hstep : unwords (g ++ [w]) = unwords g ++ ' ' :: w := by
      rw [unwords_append hg (by simp), unwords_singleton]
    -- two words at least, so the line is within the width up to `w`
    have hwide : (unwords g).length + 1 + w.length ≤ width := by
      rcases hfits with hle | ⟨v, hv⟩
      · have hfront : (unwords (g ++ [w])).length ≤ (unwords (g ++ w :: rest)).length := by
          by_cases hrest : rest = []
          · simp [hrest]
          · rw [hgrow, unwords_append (by simp) hrest, List.length_append]
            omega
        rw [hstep, List.length_append, List.length_cons] at hfront
        omega
      · have hlength := congrArg List.length hv
        have hpos := List.length_pos_iff.2 hg
        simp only [List.length_append, List.length_cons, List.length_nil] at hlength
        omega
    rw [hgrow] at hfits ⊢
    rw [← ih (by simp) hfits, hstep, List.cons_append, fillFrom, if_neg (by omega)]

/-- **Filling finds a layout**, whichever it is. -/
theorem fillFrom_of_layout {g rest : List (List Char)} {groups : List (List (List Char))}
    (hg : g ≠ []) (h : Layout ((g ++ rest) :: groups)) :
    fillFrom (unwords g) (rest ++ groups.flatten) = ((g ++ rest) :: groups).map unwords := by
  induction groups generalizing g rest with
  | nil =>
    rw [fillFrom_append hg (h.fits _ List.mem_cons_self)]
    simp [fillFrom]
  | cons next groups ih =>
    obtain ⟨⟨w, tail, rfl, hwide⟩, -⟩ := List.isChain_cons_cons.1 h.full
    have hnext : fillFrom (unwords [w]) (tail ++ groups.flatten)
        = ((w :: tail) :: groups).map unwords := ih (by simp) h.tail
    rw [unwords_singleton] at hnext
    rw [fillFrom_append hg (h.fits _ List.mem_cons_self), List.flatten_cons, List.cons_append,
      fillFrom, if_pos hwide, hnext]
    rfl

theorem fill_flatten {groups : List (List (List Char))} (h : Layout groups) :
    fill groups.flatten = groups.map unwords := by
  cases groups with
  | nil => rfl
  | cons g groups =>
    obtain ⟨w, rest, rfl⟩ := List.exists_cons_of_ne_nil (h.ne_nil g List.mem_cons_self)
    have hfill : fillFrom (unwords [w]) (rest ++ groups.flatten)
        = ((w :: rest) :: groups).map unwords := fillFrom_of_layout (by simp) h
    rw [unwords_singleton] at hfill
    exact hfill

/-- Any words can follow on an unfinished line. -/
theorem exists_layout_of_line (ws : List (List Char)) {g : List (List Char)} (hg : g ≠ [])
    (hfits : (unwords g).length ≤ width ∨ ∃ w, g = [w]) :
    ∃ rest groups, Layout ((g ++ rest) :: groups) ∧ rest ++ groups.flatten = ws := by
  induction ws generalizing g with
  | nil =>
    refine ⟨[], [], ⟨?_, ?_, List.isChain_singleton _⟩, rfl⟩
    · simpa using hg
    · simpa using hfits
  | cons w ws ih =>
    by_cases hwide : width < (unwords g).length + 1 + w.length
    · obtain ⟨rest, groups, hlayout, hwords⟩ := ih (g := [w]) (by simp) (Or.inr ⟨w, rfl⟩)
      refine ⟨[], ([w] ++ rest) :: groups, ⟨?_, ?_, ?_⟩, by simp [← hwords]⟩
      · simpa [hg] using hlayout.ne_nil
      · rw [List.append_nil]
        exact List.forall_mem_cons.2 ⟨hfits, hlayout.fits⟩
      · rw [List.append_nil]
        exact List.isChain_cons_cons.2 ⟨⟨w, rest, rfl, hwide⟩, hlayout.full⟩
    · have hstep : (unwords (g ++ [w])).length ≤ width := by
        rw [unwords_append hg (by simp), unwords_singleton, List.length_append, List.length_cons]
        omega
      obtain ⟨rest, groups, hlayout, hwords⟩ := ih (g := g ++ [w]) (by simp) (Or.inl hstep)
      refine ⟨w :: rest, groups, ?_, by simp [← hwords]⟩
      simpa using hlayout

theorem exists_layout (ws : List (List Char)) :
    ∃ groups, Layout groups ∧ groups.flatten = ws := by
  cases ws with
  | nil => exact ⟨[], ⟨by simp, by simp, List.isChain_nil⟩, rfl⟩
  | cons w ws =>
    obtain ⟨rest, groups, hlayout, hwords⟩ :=
      exists_layout_of_line ws (g := [w]) (by simp) (Or.inr ⟨w, rfl⟩)
    exact ⟨_, hlayout, by simp [← hwords]⟩

/-! ## Lines of a text -/

/-- The lines `out` hold the words of a text, in order, and each line as many of them as fit. -/
structure Filled (text : List Char) (out : List (List Char)) : Prop where
  keeps_words : out.flatMap words = words text
  nonempty : ∀ line ∈ out, line ≠ []
  spaced : ∀ line ∈ out, line = unwords (words line)
  /-- No line break, and no other blank but spaces. -/
  unbroken : ∀ line ∈ out, ∀ c ∈ line, isBlank c = true → c = ' '
  fits : ∀ line ∈ out, line.length ≤ width ∨ ∃ w, words line = [w]
  greedy : out.IsChain fun line next =>
    ∃ w rest, words next = w :: rest ∧ width < line.length + 1 + w.length

/-- The words of the lines are a layout. -/
theorem Filled.layout {text : List Char} {out : List (List Char)} (h : Filled text out) :
    Layout (out.map words) := by
  refine ⟨?_, ?_, ?_⟩
  · intro g hg hnil
    obtain ⟨line, hline, rfl⟩ := List.mem_map.1 hg
    refine h.nonempty line hline ?_
    rw [h.spaced line hline, hnil]
    rfl
  · intro g hg
    obtain ⟨line, hline, rfl⟩ := List.mem_map.1 hg
    rw [← h.spaced line hline]
    exact h.fits line hline
  · rw [List.isChain_map]
    refine List.IsChain.imp_of_mem_imp ?_ h.greedy
    intro line next hline _ hwide
    rw [← h.spaced line hline]
    exact hwide

theorem filled_of_layout {text : List Char} {groups : List (List (List Char))}
    (h : Layout groups) (hwords : groups.flatten = words text) :
    Filled text (groups.map unwords) := by
  have hsolid : ∀ g ∈ groups, ∀ w ∈ g, Solid w := fun g hg w hw =>
    solid_of_mem_words (hwords ▸ List.mem_flatten.2 ⟨g, hg, hw⟩)
  have hback : ∀ g ∈ groups, words (unwords g) = g := fun g hg => words_unwords (hsolid g hg)
  refine ⟨?_, ?_, ?_, ?_, ?_, ?_⟩
  · have hmap : groups.map (fun g => words (unwords g)) = groups := by
      conv_rhs => rw [← List.map_id groups]
      exact List.map_congr_left hback
    rw [List.flatMap_map, List.flatMap_def, hmap, hwords]
  · simp only [List.forall_mem_map]
    exact fun g hg => unwords_ne_nil (h.ne_nil g hg) (hsolid g hg)
  · simp only [List.forall_mem_map]
    intro g hg
    rw [hback g hg]
  · simp only [List.forall_mem_map]
    intro g hg c hc hblank
    rcases mem_unwords hc with hspace | ⟨w, hw, hcw⟩
    · exact hspace
    · rw [(hsolid g hg w hw).no_blank c hcw] at hblank
      exact absurd hblank Bool.false_ne_true
  · simp only [List.forall_mem_map]
    intro g hg
    rw [hback g hg]
    exact h.fits g hg
  · rw [List.isChain_map]
    refine List.IsChain.imp_of_mem_imp ?_ h.full
    intro g next _ hnext hwide
    rw [hback next hnext]
    exact hwide

/-- **Exactly one way to set a text has these properties**, and it is what `fill` returns. -/
theorem filled_iff {text : List Char} {out : List (List Char)} :
    Filled text out ↔ out = fill (words text) := by
  constructor
  · intro h
    rw [← h.keeps_words, List.flatMap_def, fill_flatten h.layout, List.map_map]
    conv_lhs => rw [← List.map_id out]
    exact List.map_congr_left h.spaced
  · rintro rfl
    obtain ⟨groups, hlayout, hwords⟩ := exists_layout (words text)
    rw [← hwords, fill_flatten hlayout]
    exact filled_of_layout hlayout hwords

/-- A line of a text, taken as a text, stays one line. -/
theorem Filled.singleton {text line : List Char} {out : List (List Char)} (h : Filled text out)
    (hline : line ∈ out) : Filled line [line] where
  keeps_words := by simp
  nonempty := by simpa using h.nonempty line hline
  spaced := by simpa using h.spaced line hline
  unbroken := by simpa using h.unbroken line hline
  fits := by simpa using h.fits line hline
  greedy := List.isChain_singleton line

theorem forall₂_filled_iff {texts : List (List Char)} {groups : List (List (List Char))} :
    List.Forall₂ Filled texts groups ↔ groups = texts.map fun text => fill (words text) := by
  constructor
  · intro h
    induction h with
    | nil => rfl
    | cons hfilled _ ih => rw [List.map_cons, ← ih, filled_iff.1 hfilled]
  · rintro rfl
    rw [List.forall₂_map_right_iff, List.forall₂_same]
    exact fun text _ => filled_iff.2 rfl

theorem map_toList_lines (raw : String) :
    (lines raw).map String.toList
      = (((clean raw.toList).splitOn '\n').map fun text => fill (words text)).flatten := by
  rw [lines, List.map_map, List.flatMap_def]
  simp

theorem flatMap_words_lines (raw : String) :
    ((lines raw).flatMap fun line => words line.toList) = words (clean raw.toList) := by
  have hpieces : ∀ text : List Char, (fill (words text)).flatMap words = words text := fun text =>
    (filled_iff.2 rfl).keeps_words
  calc ((lines raw).flatMap fun line => words line.toList)
      = ((lines raw).map String.toList).flatMap words := by rw [List.flatMap_map]
    _ = ((clean raw.toList).splitOn '\n').flatMap words := by
        rw [map_toList_lines, ← List.flatMap_def, List.flatMap_assoc]
        simp only [hpieces]
    _ = words (clean raw.toList) := flatMap_words_splitOn _

/-- **Documentation is set without loss and greedily.** The lines of a documentation text have the
    words of the cleaned text, in order. They come in groups, one for each line of the cleaned text,
    and `Filled` says what a group is: lines of words with single spaces, within the width unless
    there is one word only, none of which could have taken the first word of the next. No other
    groups would do. -/
theorem lines_filled_greedily (raw : String) :
    ((lines raw).flatMap fun line => words line.toList) = words (clean raw.toList) ∧
      ∃ groups, (lines raw).map String.toList = groups.flatten ∧
        List.Forall₂ Filled ((clean raw.toList).splitOn '\n') groups ∧
        ∀ others, List.Forall₂ Filled ((clean raw.toList).splitOn '\n') others →
          others = groups := by
  refine ⟨flatMap_words_lines raw, _, map_toList_lines raw, forall₂_filled_iff.2 rfl, ?_⟩
  intro others h
  exact forall₂_filled_iff.1 h

end DocText

end GoBindings
