import GoBindings.DocText
import GoBindings.Go.Printer
import Mathlib.Data.List.Basic

set_option autoImplicit false

/-! # Lines of code and lines of comment

What is left of a Go text without its empty lines and its comment lines (`codeLines`). A line break
cuts a text in two that can be looked at apart, and everything the printer writes at the outer level
ends with one. So documentation goes without a trace as long as none of its lines has a line break
inside (`Unbroken`); that of a description never has, since it is made of words. -/

namespace GoBindings

/-! ## Documentation is made of words -/

namespace Text

/-- No piece holds a character that the text was split at. -/
theorem eq_false_of_mem_splitOnP {p : Char → Bool} {cs piece : List Char}
    (h : piece ∈ cs.splitOnP p) : ∀ c ∈ piece, p c = false := by
  induction hlength : cs.length using Nat.strongRecOn generalizing cs with
  | ind n ih =>
    cases hfirst : cs.find? p with
    | none =>
      have hnone : ∀ c ∈ cs, p c = false := by simpa using hfirst
      rw [List.splitOnP_eq_singleton hnone, List.mem_singleton] at h
      exact h ▸ hnone
    | some sep =>
      -- the first piece ends at `sep`, and all others are pieces of what follows it
      obtain ⟨hsep, front, rest, rfl, hfront⟩ := List.find?_eq_some_iff_append.1 hfirst
      have hclear : ∀ c ∈ front, p c = false := by simpa using hfront
      rw [List.splitOnP_append_cons_of_forall_mem hclear sep hsep, List.mem_cons] at h
      rcases h with rfl | h
      · exact hclear
      · refine ih rest.length ?_ h rfl
        rw [← hlength, List.length_append, List.length_cons]
        omega

theorem not_isBlank_of_mem_words {cs w : List Char} (h : w ∈ words cs) :
    ∀ c ∈ w, isBlank c = false :=
  eq_false_of_mem_splitOnP (List.mem_filter.1 h).1

end Text

namespace DocText

theorem mem_fillFrom {line l : List Char} {ws : List (List Char)} (h : l ∈ fillFrom line ws)
    {c : Char} (hc : c ∈ l) : c ∈ line ∨ c = ' ' ∨ ∃ w ∈ ws, c ∈ w := by
  induction ws generalizing line with
  | nil =>
    obtain rfl : l = line := by simpa [fillFrom] using h
    exact Or.inl hc
  | cons w ws ih =>
    rw [fillFrom] at h
    split at h
    · rcases List.mem_cons.1 h with rfl | h
      · exact Or.inl hc
      · rcases ih h with hw | hblank | ⟨v, hv, hcv⟩
        · exact Or.inr (Or.inr ⟨w, List.mem_cons_self, hw⟩)
        · exact Or.inr (Or.inl hblank)
        · exact Or.inr (Or.inr ⟨v, List.mem_cons_of_mem w hv, hcv⟩)
    · rcases ih h with hline | hblank | ⟨v, hv, hcv⟩
      · rcases List.mem_append.1 hline with hline | hline
        · exact Or.inl hline
        · rcases List.mem_cons.1 hline with hblank | hw
          · exact Or.inr (Or.inl hblank)
          · exact Or.inr (Or.inr ⟨w, List.mem_cons_self, hw⟩)
      · exact Or.inr (Or.inl hblank)
      · exact Or.inr (Or.inr ⟨v, List.mem_cons_of_mem w hv, hcv⟩)

theorem mem_fill {ws : List (List Char)} {l : List Char} (h : l ∈ fill ws) {c : Char}
    (hc : c ∈ l) : c = ' ' ∨ ∃ w ∈ ws, c ∈ w := by
  cases ws with
  | nil => exact absurd h List.not_mem_nil
  | cons w ws =>
    rcases mem_fillFrom h hc with hw | hblank | ⟨v, hv, hcv⟩
    · exact Or.inr ⟨w, List.mem_cons_self, hw⟩
    · exact Or.inl hblank
    · exact Or.inr ⟨v, List.mem_cons_of_mem w hv, hcv⟩

/-- The only blanks in a line of documentation are spaces. -/
theorem eq_space_of_mem_lines {raw line : String} (h : line ∈ lines raw) {c : Char}
    (hc : c ∈ line.toList) : c = ' ' ∨ Text.isBlank c = false := by
  obtain ⟨l, hl, rfl⟩ := List.mem_map.1 h
  obtain ⟨piece, -, hl⟩ := List.mem_flatMap.1 hl
  rw [String.toList_ofList] at hc
  rcases mem_fill hl hc with hspace | ⟨w, hw, hcw⟩
  · exact Or.inl hspace
  · exact Or.inr (Text.not_isBlank_of_mem_words hw c hcw)

end DocText

namespace Go

/-! ## Lines of a text -/

/-- A line comment, behind any number of tabs. -/
def isComment (line : List Char) : Bool :=
  ['/', '/'].isPrefixOf (line.dropWhile fun c => c == '\t')

/-- The lines of a text that are neither empty nor a comment. -/
def codeLines (text : String) : List (List Char) :=
  (text.toList.splitOn '\n').filter fun line => !line.isEmpty && !isComment line

@[simp]
theorem codeLines_empty : codeLines "" = [] := rfl

/-- A text of whole lines. -/
def EndsLine (text : String) : Prop := text = "" ∨ text.toList.getLast? = some '\n'

theorem endsLine_empty : EndsLine "" := Or.inl rfl

theorem getLast?_append_line {a b : String} (h : b.toList.getLast? = some '\n') :
    (a ++ b).toList.getLast? = some '\n' := by
  rw [String.toList_append, List.getLast?_append, h]
  rfl

theorem EndsLine.append {a b : String} (ha : EndsLine a) (hb : EndsLine b) : EndsLine (a ++ b) := by
  rcases hb with rfl | hb
  · rwa [String.append_empty]
  · exact Or.inr (getLast?_append_line hb)

theorem endsLine_join {texts : List String} (h : ∀ text ∈ texts, EndsLine text) :
    EndsLine (String.join texts) := by
  induction texts with
  | nil => exact endsLine_empty
  | cons text texts ih =>
    rw [String.join_cons]
    exact (h text List.mem_cons_self).append (ih fun t ht => h t (List.mem_cons_of_mem text ht))

/-- **The code of whole lines is the code before and after each line break.** -/
theorem EndsLine.codeLines_append {a : String} (h : EndsLine a) (b : String) :
    codeLines (a ++ b) = codeLines a ++ codeLines b := by
  rcases h with rfl | h
  · simp
  · obtain ⟨front, hfront⟩ := List.getLast?_eq_some_iff.1 h
    have hwhole : (a ++ b).toList = front ++ '\n' :: b.toList := by simp [hfront]
    simp only [codeLines, hwhole, hfront, List.splitOn_append_cons_self, List.filter_append]
    simp

theorem codeLines_join {texts : List String} (h : ∀ text ∈ texts, EndsLine text) :
    codeLines (String.join texts) = texts.flatMap codeLines := by
  induction texts with
  | nil => rfl
  | cons text texts ih =>
    rw [String.join_cons, (h text List.mem_cons_self).codeLines_append, List.flatMap_cons,
      ih fun t ht => h t (List.mem_cons_of_mem text ht)]

theorem codeLines_newline_append (text : String) : codeLines ("\n" ++ text) = codeLines text := by
  have hnewline : EndsLine "\n" := Or.inr rfl
  rw [hnewline.codeLines_append]
  rfl

/-! ## Documentation -/

/-- Each item of a documentation is one line. -/
def Unbroken (doc : List String) : Prop := ∀ line ∈ doc, '\n' ∉ line.toList

theorem unbroken_nil : Unbroken [] := fun _ h => absurd h List.not_mem_nil

theorem unbroken_lines (raw : String) : Unbroken (DocText.lines raw) := by
  intro line hline hmem
  rcases DocText.eq_space_of_mem_lines hline hmem with hspace | hblank
  · exact absurd hspace (by decide)
  · exact absurd hblank (by decide)

theorem isComment_of_tabs (indent : Nat) (line : List Char) :
    isComment (List.replicate indent '\t' ++ '/' :: '/' :: line) = true := by
  induction indent with
  | zero => rfl
  | succ indent ih =>
    rw [List.replicate_succ, List.cons_append]
    exact ih

theorem codeLines_comment (indent : Nat) {line : String} (h : '\n' ∉ line.toList) :
    codeLines (tabs indent ++ "// " ++ line ++ "\n") = [] := by
  have hline : (tabs indent ++ "// " ++ line ++ "\n").toList
      = (List.replicate indent '\t' ++ '/' :: '/' :: ' ' :: line.toList) ++ ['\n'] := by
    simp [tabs]
  have hone : '\n' ∉ List.replicate indent '\t' ++ '/' :: '/' :: ' ' :: line.toList := by
    simp [h]
  rw [codeLines, hline, List.splitOn_append_cons_self_of_not_mem hone]
  simp [isComment_of_tabs]

theorem endsLine_printDoc (indent : Nat) (doc : List String) : EndsLine (printDoc indent doc) := by
  refine endsLine_join fun text htext => ?_
  obtain ⟨line, -, rfl⟩ := List.mem_map.1 htext
  exact Or.inr (getLast?_append_line rfl)

/-- Documentation holds no code. -/
theorem codeLines_printDoc (indent : Nat) {doc : List String} (h : Unbroken doc) :
    codeLines (printDoc indent doc) = [] := by
  rw [printDoc, codeLines_join, List.flatMap_map]
  · exact List.flatMap_eq_nil_iff.2 fun line hline => codeLines_comment indent (h line hline)
  · intro text htext
    obtain ⟨line, -, rfl⟩ := List.mem_map.1 htext
    exact Or.inr (getLast?_append_line rfl)

theorem codeLines_printDoc_append (indent : Nat) {doc : List String} (h : Unbroken doc)
    (text : String) : codeLines (printDoc indent doc ++ text) = codeLines text := by
  rw [(endsLine_printDoc indent doc).codeLines_append, codeLines_printDoc indent h, List.nil_append]

/-! ## Declarations -/

namespace Field

def withoutDoc (f : Field) : Field := { f with doc := [] }

theorem endsLine_print (f : Field) : EndsLine f.print := by
  unfold print
  refine Or.inr (getLast?_append_line ?_)
  split
  · exact getLast?_append_line rfl
  · exact getLast?_append_line rfl

theorem codeLines_print {f : Field} (h : Unbroken f.doc) :
    codeLines f.print = codeLines f.withoutDoc.print :=
  (codeLines_printDoc_append 1 h _).trans (codeLines_printDoc_append 1 unbroken_nil _).symm

/-- Neither documentation nor the empty line before it is code. -/
theorem codeLines_printFollowing {fs : List Field} (h : ∀ f ∈ fs, Unbroken f.doc) :
    codeLines (printFollowing fs) = fs.flatMap fun f => codeLines f.withoutDoc.print := by
  rw [printFollowing, codeLines_join, List.flatMap_map]
  · refine List.flatMap_congr fun f hf => ?_
    rw [← codeLines_print (h f hf)]
    split
    · rfl
    · exact codeLines_newline_append f.print
  · intro text htext
    obtain ⟨f, -, rfl⟩ := List.mem_map.1 htext
    split
    · exact f.endsLine_print
    · exact EndsLine.append (Or.inr rfl) f.endsLine_print

theorem endsLine_printFollowing (fs : List Field) : EndsLine (printFollowing fs) := by
  refine endsLine_join fun text htext => ?_
  obtain ⟨f, -, rfl⟩ := List.mem_map.1 htext
  split
  · exact f.endsLine_print
  · exact EndsLine.append (Or.inr rfl) f.endsLine_print

end Field

theorem TypeBody.getLast?_print (b : TypeBody) : b.print.toList.getLast? = some '\n' := by
  unfold print
  split
  · rfl
  · exact getLast?_append_line rfl
  · rfl
  · exact getLast?_append_line rfl
  · exact getLast?_append_line rfl

theorem Decl.endsLine_print (d : Decl) : EndsLine d.print := by
  cases d with
  | type d => exact Or.inr (getLast?_append_line d.body.getLast?_print)
  | func f =>
    refine Or.inr (getLast?_append_line ?_)
    split
    · rfl
    · exact getLast?_append_line rfl
  | consts cs =>
    cases cs with
    | nil => exact endsLine_empty
    | cons c cs => exact Or.inr (getLast?_append_line rfl)

theorem TypeDecl.codeLines_print {d : TypeDecl} (h : Unbroken d.doc) :
    codeLines d.print = codeLines ("type " ++ d.name ++ " " ++ d.body.print) := by
  unfold print
  simp only [String.append_assoc]
  exact codeLines_printDoc_append 0 h _

/-- The code of a struct: its name, and the names and types of its fields. -/
theorem TypeDecl.codeLines_print_struct {doc : List String} {name : String} {f : Field}
    {fs : List Field} (hdoc : Unbroken doc) (hfields : ∀ g ∈ f :: fs, Unbroken g.doc) :
    codeLines (TypeDecl.print ⟨doc, name, .struct (f :: fs)⟩)
      = codeLines ("type " ++ name ++ " struct \x7b\n") ++
        ((f :: fs).flatMap fun g => codeLines g.withoutDoc.print) ++ codeLines "\x7d\n" := by
  have hopen : EndsLine ("type " ++ name ++ " struct \x7b\n") := Or.inr (getLast?_append_line rfl)
  have htext : "type " ++ name ++ " " ++ TypeBody.print (.struct (f :: fs))
      = "type " ++ name ++ " struct \x7b\n" ++
        (f.print ++ (Field.printFollowing fs ++ "\x7d\n")) := by
    simp only [TypeBody.print, ← String.toList_inj, String.toList_append, List.append_assoc]
    rfl
  rw [codeLines_print hdoc, htext, hopen.codeLines_append, f.endsLine_print.codeLines_append,
    (Field.endsLine_printFollowing fs).codeLines_append, List.flatMap_cons,
    Field.codeLines_print (hfields f List.mem_cons_self),
    Field.codeLines_printFollowing fun g hg => hfields g (List.mem_cons_of_mem f hg)]
  simp only [List.append_assoc]

theorem Func.codeLines_print {f : Func} (h : Unbroken f.doc) :
    codeLines f.print = codeLines ({ f with doc := [] } : Func).print := by
  unfold print
  simp only [String.append_assoc]
  rw [codeLines_printDoc_append 0 h, codeLines_printDoc_append 0 unbroken_nil]

/-! ## Files -/

namespace File

theorem endsLine_printDecl (d : Decl) : EndsLine (printDecl d) := by
  simp only [printDecl]
  split
  · exact endsLine_empty
  · exact EndsLine.append (Or.inr rfl) d.endsLine_print

theorem codeLines_printDecl (d : Decl) : codeLines (printDecl d) = codeLines d.print := by
  simp only [printDecl]
  split
  · next hempty =>
    have htext : d.print = "" := by simpa using hempty
    rw [htext]
  · exact codeLines_newline_append d.print

theorem endsLine_printImports (imports : List String) : EndsLine (printImports imports) := by
  unfold printImports
  split
  · exact endsLine_empty
  · exact Or.inr (getLast?_append_line rfl)
  · exact Or.inr (getLast?_append_line rfl)

/-- What stands before the imports. -/
def opening (f : File) : String :=
  (if f.header.isEmpty then "" else printDoc 0 f.header ++ "\n") ++ "package " ++ f.package ++ "\n"

/-- What stands before the declarations. -/
def printHead (f : File) : String := f.opening ++ printImports f.imports

/-- **The code of a file is that of its head and of its declarations**, one after the other. -/
theorem codeLines_print (f : File) :
    codeLines f.print = codeLines f.printHead ++ f.decls.flatMap fun d => codeLines d.print := by
  have hhead : EndsLine f.printHead :=
    EndsLine.append (Or.inr (getLast?_append_line rfl)) (endsLine_printImports f.imports)
  have hdecls : ∀ text ∈ f.decls.map printDecl, EndsLine text := by
    intro text htext
    obtain ⟨d, -, rfl⟩ := List.mem_map.1 htext
    exact endsLine_printDecl d
  show codeLines (f.printHead ++ String.join (f.decls.map printDecl)) = _
  rw [hhead.codeLines_append, codeLines_join hdecls, List.flatMap_map]
  simp only [codeLines_printDecl]

end File

end Go

end GoBindings
