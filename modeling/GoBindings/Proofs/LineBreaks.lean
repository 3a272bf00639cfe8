import GoBindings.Proofs.Markup
import GoBindings.Source

set_option autoImplicit false

/-! # Line breaks in descriptions

Line breaks are taken out of a description before its notation is read. That is done in one pass,
and comes to the same as two: each pair of carriage return and line feed becomes a space, and then
each of the two that is left (`withoutLineBreaks_eq`). So a line break leaves one space however it
is written, as long as one text has one way of writing them. -/

namespace GoBindings

namespace Schema

open DocText (replaceAll replaceAfter_induction replaceAfter_mark replaceAfter_char
  replaceAfter_of_not_infix)

/-- A space in place of a carriage return or a line feed. -/
def spaceFor (c : Char) : Char := if c = '\n' ∨ c = '\r' then ' ' else c

theorem spaceFor_ne (c : Char) : spaceFor c ≠ '\n' ∧ spaceFor c ≠ '\r' := by
  unfold spaceFor
  split
  · decide
  · next h => exact not_or.1 h

theorem withoutLineBreaks_cons {c : Char} {cs : List Char} (h : ¬ ['\r', '\n'] <+: c :: cs) :
    withoutLineBreaks (c :: cs) = spaceFor c :: withoutLineBreaks cs := by
  rw [withoutLineBreaks]
  · simp [spaceFor]
  · rintro rest rfl rfl
    exact h (List.prefix_append ['\r', '\n'] rest)

/-- One pass does what two do: pairs first, then single characters. -/
theorem withoutLineBreaks_eq (cs : List Char) :
    withoutLineBreaks cs = (replaceAll "\r\n" " " cs).map spaceFor := by
  have hpair : ['\r', '\n'] ≠ [] := by decide
  show _ = (DocText.replaceAfter 0 ['\r', '\n'] [' '] cs).map spaceFor
  induction cs using replaceAfter_induction hpair with
  | nil => rfl
  | mark rest ih =>
    rw [replaceAfter_mark hpair, List.map_append, ← ih]
    rfl
  | char c cs hc ih => rw [replaceAfter_char hc, List.map_cons, ← ih, withoutLineBreaks_cons hc]

theorem not_mem_withoutLineBreaks (cs : List Char) :
    '\n' ∉ withoutLineBreaks cs ∧ '\r' ∉ withoutLineBreaks cs := by
  simp only [withoutLineBreaks_eq, List.mem_map, not_exists, not_and]
  exact ⟨fun c _ => (spaceFor_ne c).1, fun c _ => (spaceFor_ne c).2⟩

/-- Where no pair stands, every break is a character of its own. -/
theorem withoutLineBreaks_of_no_pair {cs : List Char} (h : ¬ ['\r', '\n'] <:+: cs) :
    withoutLineBreaks cs = cs.map spaceFor := by
  have hsame : replaceAll "\r\n" " " cs = cs := replaceAfter_of_not_infix (by decide) h
  rw [withoutLineBreaks_eq, hsame]

/-! ## Three ways of writing a line break -/

/-- The text with a given line break in place of each line feed. -/
def withLineBreak (lineBreak text : String) : String :=
  String.ofList (text.toList.flatMap fun c => if c = '\n' then lineBreak.toList else [c])

theorem withoutLineBreaks_feeds {cs : List Char} (h : '\r' ∉ cs) :
    withoutLineBreaks cs = cs.map spaceFor :=
  withoutLineBreaks_of_no_pair fun hpair => h (hpair.subset List.mem_cons_self)

theorem withoutLineBreaks_pairs {cs : List Char} (h : '\r' ∉ cs) :
    withoutLineBreaks (cs.flatMap fun c => if c = '\n' then ['\r', '\n'] else [c])
      = cs.map spaceFor := by
  induction cs with
  | nil => rfl
  | cons c cs ih =>
    obtain ⟨hc, hcs⟩ := not_or.1 (mt List.mem_cons.2 h)
    rw [List.flatMap_cons, List.map_cons, ← ih hcs]
    by_cases hfeed : c = '\n'
    · rw [if_pos hfeed, hfeed]
      rfl
    · -- no pair starts with a character that is no carriage return
      have hstart : ¬ ['\r', '\n'] <+: c ::
          cs.flatMap fun c => if c = '\n' then ['\r', '\n'] else [c] :=
        fun hpair => hc (List.cons_prefix_cons.1 hpair).1
      rw [if_neg hfeed, List.singleton_append, withoutLineBreaks_cons hstart]

theorem withoutLineBreaks_returns (cs : List Char) :
    withoutLineBreaks (cs.flatMap fun c => if c = '\n' then ['\r'] else [c])
      = cs.map spaceFor := by
  have hmap : (cs.flatMap fun c => if c = '\n' then ['\r'] else [c])
      = cs.map fun c => if c = '\n' then '\r' else c := by
    rw [List.map_eq_flatMap]
    exact List.flatMap_congr fun c _ => by split <;> rfl
  have hno : '\n' ∉ cs.map fun c => if c = '\n' then '\r' else c := by
    intro hmem
    obtain ⟨c, -, hc⟩ := List.mem_map.1 hmem
    split at hc
    · exact absurd hc (by decide)
    · next hne => exact hne hc
  have hpair : ¬ ['\r', '\n'] <:+: cs.map fun c => if c = '\n' then '\r' else c :=
    fun hpair => hno (hpair.subset (List.mem_cons_of_mem _ List.mem_cons_self))
  rw [hmap, withoutLineBreaks_of_no_pair hpair, List.map_map]
  refine List.map_congr_left fun c _ => ?_
  by_cases hfeed : c = '\n'
  · simp [hfeed, spaceFor]
  · simp [hfeed]

/-- Texts that are the same without line breaks are the same description. -/
theorem parse_congr {a b : String} (h : withoutLineBreaks a.toList = withoutLineBreaks b.toList)
    (path : Path) : Source.parse path a = Source.parse path b := by
  rw [Source.parse, Source.parse, Document.parse, Document.parse, h]

/-- **It does not matter how line breaks are written.** What is read has none of them left. A text
    in which line feeds break lines is the same description, or has the same error, with pairs of
    carriage return and line feed or with carriage returns in place of all line feeds, because what
    is read is the same text. -/
theorem parse_whatever_line_breaks (path : Path) (text : String) :
    ('\n' ∉ withoutLineBreaks text.toList ∧ '\r' ∉ withoutLineBreaks text.toList) ∧
    ('\r' ∉ text.toList → ∀ lineBreak ∈ ["\r\n", "\r"],
      withoutLineBreaks (withLineBreak lineBreak text).toList = withoutLineBreaks text.toList ∧
      Source.parse path (withLineBreak lineBreak text) = Source.parse path text) := by
  refine ⟨not_mem_withoutLineBreaks text.toList, fun hreturn lineBreak hbreak => ?_⟩
  have hsame : withoutLineBreaks (withLineBreak lineBreak text).toList
      = withoutLineBreaks text.toList := by
    rw [withLineBreak, String.toList_ofList, withoutLineBreaks_feeds hreturn]
    rcases List.mem_cons.1 hbreak with rfl | hbreak
    · exact withoutLineBreaks_pairs hreturn
    · rw [List.mem_singleton.1 hbreak]
      exact withoutLineBreaks_returns text.toList
  exact ⟨hsame, parse_congr hsame path⟩

/-- A description with line breaks between tokens, in a text, and after a backslash. -/
def tagText (lineBreak : String) : String :=
  "\x7b\"complexTypes\": [" ++ lineBreak ++ "\x7b\"name\": \"Tag\"," ++ lineBreak ++
    "\"doc\": \"two" ++ lineBreak ++ lineBreak ++ "lines \\" ++ lineBreak ++ "\"\x7d]\x7d" ++
    lineBreak

theorem tagText_parse_whatever_line_breaks :
    '\r' ∉ (tagText "\n").toList ∧
      Source.parse ⟨"tag.kmd.json"⟩ (tagText "\r\n")
        = Source.parse ⟨"tag.kmd.json"⟩ (tagText "\n") ∧
      Source.parse ⟨"tag.kmd.json"⟩ (tagText "\r")
        = Source.parse ⟨"tag.kmd.json"⟩ (tagText "\n") := by
  have hreturn : '\r' ∉ (tagText "\n").toList := by decide +kernel
  have hpairs : withLineBreak "\r\n" (tagText "\n") = tagText "\r\n" := by decide +kernel
  have hreturns : withLineBreak "\r" (tagText "\n") = tagText "\r" := by decide +kernel
  obtain ⟨-, hsame⟩ := parse_whatever_line_breaks ⟨"tag.kmd.json"⟩ (tagText "\n")
  refine ⟨hreturn, ?_, ?_⟩
  · rw [← hpairs]
    exact (hsame hreturn _ (by decide)).2
  · rw [← hreturns]
    exact (hsame hreturn _ (by decide)).2

end Schema

end GoBindings
