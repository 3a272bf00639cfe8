import GoBindings.Proofs.CodeLines
import GoBindings.Proofs.Identifiers
import GoBindings.Proofs.Stages

set_option autoImplicit false

/-! # Texts in string literals

A scanner takes a string literal off the front of a Go text (`readString`). It reads an escaped
character back as that character whatever comes after it (`readQuoted_escapedChar`), so it reads
every literal back, and leaves what follows. No literal has a line feed in it, so a constant stands
on one line, and the constants of a block can be read from its lines (`constantsIn_print`).

The constants of an enumeration have names that say less than their values: several values may give
one name. No such enumeration is rendered, so its constants differ in their names, and all the more
in their values. -/

namespace GoBindings

namespace Go

/-! ## Scanning -/

/-- What an escape stands for, by the character after the backslash. -/
def unescaped? : Char → Option Char
  | '\\' => some '\\'
  | '"' => some '"'
  | 'n' => some '\n'
  | 'r' => some '\r'
  | 't' => some '\t'
  | _ => none

/-- Takes characters up to the first quote that is not escaped, on the same line: the text they
    stand for, and what follows the quote. -/
def readQuoted : List Char → Option (List Char × List Char)
  | [] => none
  | '"' :: rest => some ([], rest)
  | '\n' :: _ => none
  | ['\\'] => none
  | '\\' :: e :: rest =>
    match unescaped? e, readQuoted rest with
    | some c, some (cs, after) => some (c :: cs, after)
    | _, _ => none
  | c :: rest =>
    match readQuoted rest with
    | some (cs, after) => some (c :: cs, after)
    | none => none

/-- Takes a string literal off the front of a text: its value, and what follows it. -/
def readString : List Char → Option (String × List Char)
  | '"' :: rest =>
    match readQuoted rest with
    | some (cs, after) => some (String.ofList cs, after)
    | none => none
  | _ => none

theorem readQuoted_backslash {e c : Char} (he : unescaped? e = some c) {rest cs after : List Char}
    (h : readQuoted rest = some (cs, after)) :
    readQuoted ('\\' :: e :: rest) = some (c :: cs, after) := by
  rw [readQuoted, he, h]

theorem readQuoted_plain {c : Char} (hbackslash : c ≠ '\\') (hquote : c ≠ '"') (hfeed : c ≠ '\n')
    {rest cs after : List Char} (h : readQuoted rest = some (cs, after)) :
    readQuoted (c :: rest) = some (c :: cs, after) := by
  rw [readQuoted.eq_def]
  simp_all

/-- One character is read back, whatever it is and whatever follows. -/
theorem readQuoted_escapedChar (c : Char) {rest cs after : List Char}
    (h : readQuoted rest = some (cs, after)) :
    readQuoted (escapedChar c ++ rest) = some (c :: cs, after) := by
  unfold escapedChar
  split
  · exact readQuoted_backslash rfl h
  · exact readQuoted_backslash rfl h
  · exact readQuoted_backslash rfl h
  · exact readQuoted_backslash rfl h
  · exact readQuoted_backslash rfl h
  · next hbackslash hquote hfeed _ _ => exact readQuoted_plain hbackslash hquote hfeed h

theorem readQuoted_escape (cs rest : List Char) :
    readQuoted (cs.flatMap escapedChar ++ '"' :: rest) = some (cs, rest) := by
  induction cs with
  | nil => rfl
  | cons c cs ih =>
    rw [List.flatMap_cons, List.append_assoc]
    exact readQuoted_escapedChar c ih

theorem toList_quote (s : String) :
    (quote s).toList = '"' :: (s.toList.flatMap escapedChar ++ ['"']) := by
  simp [quote, escape]

/-- A literal is read back, and what follows it is left. -/
theorem readString_quote (s : String) (rest : List Char) :
    readString ((quote s).toList ++ rest) = some (s, rest) := by
  rw [toList_quote, List.cons_append, List.append_assoc, readString, List.singleton_append,
    readQuoted_escape]
  simp

theorem readString_print (s : String) (rest : List Char) :
    readString ((Literal.string s).print.toList ++ rest) = some (s, rest) := by
  rw [Literal.print, readString_quote]

/-! ## Constants -/

def Decl.constants : Decl → List Const
  | .consts cs => cs
  | _ => []

/-- The constant that a line declares: name and type, and a text as its value. -/
def readConst (line : List Char) : Option Const :=
  match line.dropWhile Identifier.isPart with
  | ' ' :: typed =>
    match typed.dropWhile Identifier.isPart with
    | ' ' :: '=' :: ' ' :: literal =>
      match readString literal with
      | some (value, []) => some {
          name := String.ofList (line.takeWhile Identifier.isPart)
          type := String.ofList (typed.takeWhile Identifier.isPart)
          value := .string value }
      | _ => none
    | _ => none
  | _ => none

/-- The constants that the lines of a text declare, in order. -/
def constantsIn (text : String) : List Const :=
  (codeLines text).filterMap fun line => readConst (line.dropWhile fun c => c == '\t')

/-- A constant that can be read from its line. -/
structure Const.Readable (c : Const) : Prop where
  name_valid : Identifier.isValid c.name = true
  type_valid : Identifier.isValid c.type = true
  value_text : ∃ s, c.value = .string s

/-- A name ends where something follows that no name holds. -/
theorem span_name {name : String} (h : Identifier.isValid name = true) {c : Char}
    (hc : Identifier.isPart c = false) (rest : List Char) :
    (name.toList ++ c :: rest).takeWhile Identifier.isPart = name.toList ∧
      (name.toList ++ c :: rest).dropWhile Identifier.isPart = c :: rest := by
  have hparts := Identifier.isPart_of_isValid h
  rw [List.takeWhile_append_of_pos hparts, List.dropWhile_append_of_pos hparts]
  simp [hc]

theorem Const.Readable.readConst_print {c : Const} (h : c.Readable) :
    readConst c.print.toList = some c := by
  obtain ⟨hname, htype, s, hvalue⟩ := h
  obtain ⟨name, type, value⟩ := c
  obtain rfl : value = .string s := hvalue
  have hspace : Identifier.isPart ' ' = false := by decide
  have hliteral : readString (quote s).toList = some (s, []) := by
    simpa using readString_quote s []
  have hline : (Const.print ⟨name, type, .string s⟩).toList
      = name.toList ++ ' ' :: (type.toList ++ ' ' :: '=' :: ' ' :: (quote s).toList) := by
    simp [Const.print, Literal.print]
  have hfirst := span_name hname hspace (type.toList ++ ' ' :: '=' :: ' ' :: (quote s).toList)
  have hsecond := span_name htype hspace ('=' :: ' ' :: (quote s).toList)
  rw [readConst, hline, hfirst.1, hfirst.2]
  simp only [hsecond.1, hsecond.2, hliteral, String.ofList_toList]

/-! ## Lines of constants -/

theorem not_mem_escapedChar (c : Char) : '\n' ∉ escapedChar c := by
  unfold escapedChar
  split <;> simp_all [eq_comm]

/-- No literal has a line feed in it. -/
theorem not_mem_quote (s : String) : '\n' ∉ (quote s).toList := by
  simp [toList_quote, not_mem_escapedChar]

theorem Const.Readable.not_mem_print {c : Const} (h : c.Readable) : '\n' ∉ c.print.toList := by
  obtain ⟨hname, htype, s, hvalue⟩ := h
  have hparts : ∀ {name : String}, Identifier.isValid name = true → '\n' ∉ name.toList := by
    intro name hname hmem
    exact absurd (Identifier.isPart_of_isValid hname '\n' hmem) (by decide)
  simp [Const.print, hvalue, Literal.print, hparts hname, hparts htype, not_mem_quote]

/-- The line of a constant starts with a name, behind its tab. -/
theorem Const.Readable.dropTabs_line {c : Const} (h : c.Readable) :
    ('\t' :: c.print.toList).dropWhile (fun d => d == '\t') = c.print.toList ∧
      isComment ('\t' :: c.print.toList) = false := by
  obtain ⟨first, others, hname, -⟩ := Identifier.isValid_iff.1 h.name_valid
  have hpart : Identifier.isPart first = true :=
    Identifier.isPart_of_isValid h.name_valid first (hname ▸ List.mem_cons_self)
  have hother : ∀ d, Identifier.isPart d = false → first ≠ d := by
    rintro d hd rfl
    exact absurd (hpart.symm.trans hd) nofun
  have htab : first ≠ '\t' := hother _ (by decide)
  have hslash : '/' ≠ first := (hother _ (by decide)).symm
  have hdrop : ('\t' :: c.print.toList).dropWhile (fun d => d == '\t') = c.print.toList := by
    simp [Const.print, hname, htab]
  refine ⟨hdrop, ?_⟩
  rw [isComment, hdrop]
  simp [Const.print, hname, List.isPrefixOf, hslash]

/-- The line of a constant is one line of code. -/
theorem Const.Readable.codeLines_line {c : Const} (h : c.Readable) :
    codeLines ("\t" ++ c.print ++ "\n") = ['\t' :: c.print.toList] := by
  have hline : ("\t" ++ c.print ++ "\n").toList = ('\t' :: c.print.toList) ++ ['\n'] := by
    simp
  have hone : '\n' ∉ '\t' :: c.print.toList := by
    simp [h.not_mem_print]
  rw [codeLines, hline, List.splitOn_append_cons_self_of_not_mem hone]
  simp [h.dropTabs_line.2]

theorem constantsIn_append {a : String} (h : EndsLine a) (b : String) :
    constantsIn (a ++ b) = constantsIn a ++ constantsIn b := by
  rw [constantsIn, h.codeLines_append, List.filterMap_append]
  rfl

theorem constantsIn_lines {cs : List Const} (h : ∀ c ∈ cs, c.Readable) :
    constantsIn (String.join (cs.map fun c => "\t" ++ c.print ++ "\n")) = cs := by
  induction cs with
  | nil => rfl
  | cons c cs ih =>
    obtain ⟨hc, hcs⟩ := List.forall_mem_cons.1 h
    have hend : EndsLine ("\t" ++ c.print ++ "\n") := Or.inr (getLast?_append_line rfl)
    have hfirst : constantsIn ("\t" ++ c.print ++ "\n") = [c] := by
      rw [constantsIn, hc.codeLines_line, List.filterMap_cons, hc.dropTabs_line.1,
        hc.readConst_print]
      rfl
    rw [List.map_cons, String.join_cons, constantsIn_append hend, ih hcs, hfirst,
      List.singleton_append]

/-- **The constants of a block are read back from its text.** -/
theorem constantsIn_print {cs : List Const} (h : ∀ c ∈ cs, c.Readable) :
    constantsIn (Decl.consts cs).print = cs := by
  cases cs with
  | nil => rfl
  | cons c cs =>
    have hopen : EndsLine "const (\n" := Or.inr rfl
    have hlines : EndsLine (String.join ((c :: cs).map fun c => "\t" ++ c.print ++ "\n")) := by
      refine endsLine_join fun text htext => ?_
      obtain ⟨d, -, rfl⟩ := List.mem_map.1 htext
      exact Or.inr (getLast?_append_line rfl)
    have hfirst : constantsIn "const (\n" = [] := rfl
    have hlast : constantsIn ")\n" = [] := rfl
    rw [Decl.print, constantsIn_append (hopen.append hlines), constantsIn_append hopen,
      constantsIn_lines h, hfirst, hlast, List.nil_append, List.append_nil]
    exact nofun

end Go

/-! ## Enumerations -/

namespace Binding

open Go (readString constantsIn)
open Identifier (enumConstant isValid)

theorem map_name_enumConstants (type : String) (values : List String) :
    (enumConstants type values).map Go.Const.name = values.map (enumConstant type) := by
  rw [enumConstants, List.map_map]
  rfl

theorem readable_of_mem_enumConstants {type : String} (h : isValid type = true)
    {values : List String} {c : Go.Const} (hc : c ∈ enumConstants type values) : c.Readable := by
  obtain ⟨value, -, rfl⟩ := List.mem_map.1 hc
  exact ⟨Identifier.isValid_enumConstant h value, h, value, rfl⟩

/-- An enumeration is rendered exactly if no two of its values give one name. -/
theorem exists_enumDecls_eq_ok_iff {t : Interface.DataType} {values : List String} :
    (∃ decls, enumDecls t values = .ok decls) ↔ (values.map (enumConstant t.name)).Nodup := by
  simp only [enumDecls_eq_ok_iff, ensureUnique_eq_ok_iff, map_name_enumConstants, exists_and_left,
    exists_eq, and_true]

theorem constants_enumDecls {t : Interface.DataType} {values : List String} {decls : List Go.Decl}
    (h : enumDecls t values = .ok decls) :
    decls.flatMap Go.Decl.constants = enumConstants t.name values := by
  obtain ⟨-, rfl⟩ := enumDecls_eq_ok_iff.1 h
  cases hconstants : enumConstants t.name values <;> simp [Go.Decl.constants]

/-- The constants in declarations carry the values of an enumeration. -/
structure CarriesValues (type : String) (values : List String) (decls : List Go.Decl) : Prop where
  /-- Their literals are read back as the values, in order, whatever follows them. -/
  values_read : ∀ rest,
    (decls.flatMap Go.Decl.constants).map (fun c => readString (c.value.print.toList ++ rest))
      = values.map fun value => some (value, rest)
  values_distinct : values.Nodup
  names_distinct : ((decls.flatMap Go.Decl.constants).map Go.Const.name).Nodup
  names_valid : isValid type = true →
    ∀ c ∈ decls.flatMap Go.Decl.constants, isValid c.name = true
  /-- A valid name of the type leaves no doubt where the parts of a line end, so names, types and
      values can be read from the text of a block. -/
  blocks_read : isValid type = true →
    ∀ block, .consts block ∈ decls → constantsIn (Go.Decl.consts block).print = block

/-- **Texts survive printing.** A string literal is read back as the text it was made of, and what
    follows it is left. So the constants of an enumeration, which is rendered exactly if its values
    give different names, carry its values. -/
theorem enum_values_survive_printing :
    (∀ (s : String) (rest : List Char),
      readString ((Go.Literal.string s).print.toList ++ rest) = some (s, rest)) ∧
    ∀ (t : Interface.DataType) (values : List String),
      ((∃ decls, enumDecls t values = .ok decls) ↔
        (values.map (enumConstant t.name)).Nodup) ∧
      ∀ decls, enumDecls t values = .ok decls → CarriesValues t.name values decls := by
  refine ⟨Go.readString_print, fun t values => ⟨exists_enumDecls_eq_ok_iff, ?_⟩⟩
  intro decls hdecls
  have hconstants := constants_enumDecls hdecls
  have hnames := exists_enumDecls_eq_ok_iff.1 ⟨decls, hdecls⟩
  refine ⟨fun rest => ?_, hnames.of_map, ?_, fun htype c hc => ?_, fun htype block hblock => ?_⟩
  · rw [hconstants, enumConstants, List.map_map]
    simp only [Function.comp_def, Go.readString_print]
  · rw [hconstants, map_name_enumConstants]
    exact hnames
  · exact (readable_of_mem_enumConstants htype (hconstants ▸ hc)).name_valid
  · refine Go.constantsIn_print fun c hc => ?_
    have hmem : c ∈ decls.flatMap Go.Decl.constants := List.mem_flatMap.2 ⟨_, hblock, hc⟩
    exact readable_of_mem_enumConstants htype (hconstants ▸ hmem)

def quality : Interface.DataType where
  name := "Quality"
  doc := []
  shape := .enum ["LOW", "very \"high\"", "C:\\new\nline"]

theorem quality_values_survive_printing :
    isValid "Quality" = true ∧
    ∃ decls, enumDecls quality ["LOW", "very \"high\"", "C:\\new\nline"] = .ok decls ∧
      (∀ rest, (decls.flatMap Go.Decl.constants).map
          (fun c => readString (c.value.print.toList ++ rest))
        = [some ("LOW", rest), some ("very \"high\"", rest), some ("C:\\new\nline", rest)]) ∧
      ∀ c ∈ decls.flatMap Go.Decl.constants, isValid c.name = true := by
  have hvalid : isValid "Quality" = true := by decide
  obtain ⟨hrendered, hcarries⟩ := enum_values_survive_printing.2 quality
    ["LOW", "very \"high\"", "C:\\new\nline"]
  obtain ⟨decls, hdecls⟩ := hrendered.2 (by decide +kernel)
  have hvalues := hcarries decls hdecls
  exact ⟨hvalid, decls, hdecls, hvalues.values_read, hvalues.names_valid hvalid⟩

end Binding

end GoBindings
