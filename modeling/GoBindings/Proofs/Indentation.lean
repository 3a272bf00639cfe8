import GoBindings.Proofs.Occurrences
import GoBindings.Proofs.StringLiterals
import GoBindings.Proofs.TypeNames

set_option autoImplicit false

/-! # Indentation

One level more of indentation puts one tab in front of every line of a statement, and does nothing
else. An expression starts within a line, so only what follows a line feed in it moves (`deeper`,
`Expr.print_succ`). Whole lines move with the first one as well (`Shifts`), and texts of whole lines
do so one after the other. Line feeds come from the printer alone: string literals have none, and
neither have names and comments by assumption (`Unbroken`). -/

namespace GoBindings

/-! ## Numbers have no line feed -/

theorem Decimal.not_mem_toDigits (n : Nat) : '\n' ∉ Nat.toDigits 10 n := by
  intro hmem
  exact absurd (Nat.isDigit_of_mem_toDigits (by decide) (by decide) hmem) (by decide)

theorem Decimal.Shortest.not_mem_positional (s : Shortest) : '\n' ∉ s.positional := by
  have hdigits : '\n' ∉ s.digitChars := not_mem_toDigits s.digits
  unfold positional
  dsimp only
  split
  · simp [hdigits]
  · split
    · have htake (k : Nat) : '\n' ∉ s.digitChars.take k := mt List.mem_of_mem_take hdigits
      have hdrop (k : Nat) : '\n' ∉ s.digitChars.drop k := mt List.mem_of_mem_drop hdigits
      simp [htake, hdrop]
    · simp [hdigits]

namespace Go

theorem not_mem_floatText (x : Float) : '\n' ∉ (floatText x).toList := by
  have hsigned {magnitude : List Char} (h : '\n' ∉ magnitude) (negative : Bool) :
      '\n' ∉ if negative then '-' :: magnitude else magnitude := by
    cases negative <;> simp [h]
  unfold floatText
  split
  · rw [String.toList_ofList]
    refine hsigned ?_ _
    split
    · simp [Decimal.not_mem_toDigits]
    · exact Decimal.Shortest.not_mem_positional _
  · split <;> decide
  · decide

theorem Literal.not_mem_print (l : Literal) : '\n' ∉ l.print.toList := by
  cases l with
  | string s => exact not_mem_quote s
  | int n =>
    show '\n' ∉ n.repr.toList
    rw [Int.repr_eq_if]
    split <;> simp [Nat.repr_eq_ofList_toDigits, Decimal.not_mem_toDigits]
  | float x => exact not_mem_floatText x
  | bool b => cases b <;> decide
  | nil => decide

/-! ## Names and comments -/

@[simp]
theorem unbroken_append {a b : List String} : Unbroken (a ++ b) ↔ Unbroken a ∧ Unbroken b :=
  List.forall_mem_append

@[simp]
theorem unbroken_cons {text : String} {texts : List String} :
    Unbroken (text :: texts) ↔ '\n' ∉ text.toList ∧ Unbroken texts :=
  List.forall_mem_cons

theorem Ty.not_mem_print {t : Ty} (h : Unbroken t.names) : '\n' ∉ t.print.toList := by
  induction t with
  | named name => exact h name List.mem_cons_self
  | slice item ih => simp [print, ih h]
  | pointer target ih => simp [print, ih h]
  | map key value ihkey ihvalue =>
    obtain ⟨hkey, hvalue⟩ := unbroken_append.1 h
    simp [print, ihkey hkey, ihvalue hvalue]

namespace Expr

/-- The names that the expression adds to those of the expressions inside it. -/
def ownNames : Expr → List String
  | ident name => [name]
  | select _ field => [field]
  | mapOf type _ | emptyOf type | assertType _ type => type.names
  | literal _ | call _ _ | index _ _ | compare _ _ _ | not _ | addressOf _ | receive _ => []

/-- Identifiers and the names of fields and types. -/
def names : Expr → List String := collect ownNames

end Expr

namespace Stmt

/-- The names and the comment that the statement adds to those of what is inside it. -/
def ownTexts : Stmt → List String
  | define names _ => names
  | forRange key value _ _ => [key, value]
  | declare name type => name :: type.names
  | comment text => [text]
  | assign _ _ | .return _ | ifThen _ _ => []

/-- Everything in a statement that is printed as it stands: identifiers, the names of fields and
    types, and comments. -/
def texts (s : Stmt) : List String := s.fromExprs Expr.ownNames ++ s.fromStmts ownTexts

end Stmt

/-! ## One level deeper -/

/-- A character, and a tab behind it if it is a line feed. -/
def deeperChar (c : Char) : List Char := if c = '\n' then ['\n', '\t'] else [c]

/-- The text with a tab behind every line feed. -/
def deeper (text : String) : String := String.ofList (text.toList.flatMap deeperChar)

@[simp]
theorem deeper_append (a b : String) : deeper (a ++ b) = deeper a ++ deeper b := by
  simp [deeper]

@[simp]
theorem deeper_of_not_mem {text : String} (h : '\n' ∉ text.toList) : deeper text = text := by
  have hsame : text.toList.flatMap deeperChar = text.toList.flatMap fun c => [c] :=
    List.flatMap_congr fun c hc => if_neg (by rintro rfl; exact h hc)
  rw [deeper, hsame, List.flatMap_singleton', String.ofList_toList]

theorem deeper_tabs (indent : Nat) : deeper (tabs indent) = tabs indent :=
  deeper_of_not_mem (by simp [tabs])

theorem tabs_succ (indent : Nat) : tabs (indent + 1) = "\t" ++ tabs indent := by
  simp [tabs, List.replicate_succ]

@[simp]
theorem deeper_commaSeparated (parts : List String) :
    deeper (commaSeparated parts) = commaSeparated (parts.map deeper) := by
  induction parts with
  | nil => rfl
  | cons part parts ih =>
    cases parts with
    | nil => simp [commaSeparated]
    | cons next rest =>
      have hsep : deeper ", " = ", " := deeper_of_not_mem (by decide)
      rw [List.map_cons, List.map_cons, commaSeparated, commaSeparated,
        String.intercalate_cons_cons, String.intercalate_cons_cons, deeper_append, deeper_append,
        hsep]
      exact congrArg _ ih

theorem map_deeper {texts : List String} (h : Unbroken texts) : texts.map deeper = texts :=
  (List.map_congr_left fun text htext => deeper_of_not_mem (h text htext)).trans
    (List.map_id' texts)

/-- Whole lines, one level deeper: the tab behind the last line feed stands in front of the first
    line instead. -/
def Shifts (a b : String) : Prop := "\t" ++ deeper a = b ++ "\t"

theorem shifts_empty : Shifts "" "" := rfl

theorem Shifts.append {a b c d : String} (hfirst : Shifts a b) (hsecond : Shifts c d) :
    Shifts (a ++ c) (b ++ d) := by
  unfold Shifts at *
  rw [deeper_append, ← String.append_assoc, hfirst, String.append_assoc, hsecond,
    String.append_assoc]

/-- A text that starts within a line becomes whole lines between tabs and a line feed. -/
theorem shifts_line (indent : Nat) (text : String) :
    Shifts (tabs indent ++ text ++ "\n") (tabs (indent + 1) ++ deeper text ++ "\n") := by
  have hfeed : deeper "\n" = "\n" ++ "\t" := rfl
  rw [Shifts, deeper_append, deeper_append, deeper_tabs, hfeed, tabs_succ]
  simp only [String.append_assoc]

/-- Whole lines in braces, which start and end within a line. -/
def block (indent : Nat) (inside : String) : String := "\x7b\n" ++ inside ++ tabs indent ++ "\x7d"

theorem Shifts.deeper_block {a b : String} (h : Shifts a b) (indent : Nat) :
    deeper (block indent a) = block (indent + 1) b := by
  have hopen : deeper "\x7b\n" = "\x7b\n" ++ "\t" := rfl
  have hclose : deeper "\x7d" = "\x7d" := rfl
  calc deeper (block indent a)
      = "\x7b\n" ++ ("\t" ++ deeper a) ++ tabs indent ++ "\x7d" := by
        rw [block, deeper_append, deeper_append, deeper_append, hopen, hclose, deeper_tabs]
        simp only [String.append_assoc]
    _ = "\x7b\n" ++ (b ++ "\t") ++ tabs indent ++ "\x7d" := by rw [h]
    _ = block (indent + 1) b := by
        rw [block, tabs_succ]
        simp only [String.append_assoc]

/-! ## Expressions -/

namespace Expr

theorem print_mapOf_cons (indent : Nat) (type : Ty) (entry : Expr × Expr)
    (entries : List (Expr × Expr)) :
    (mapOf type (entry :: entries)).print indent
      = type.print ++ block indent (printEntries (indent + 1) (entry :: entries)) := by
  rw [print, block]
  simp only [String.append_assoc]

theorem printEntries_cons (indent : Nat) (key value : Expr) (entries : List (Expr × Expr)) :
    printEntries indent ((key, value) :: entries)
      = tabs indent ++ (key.print indent ++ ": " ++ value.print indent ++ ",") ++ "\n" ++
        printEntries indent entries := by
  have hend : ",\n" = "," ++ "\n" := rfl
  rw [printEntries, hend]
  simp only [String.append_assoc]

mutual

/-- Only what follows a line feed in an expression moves. -/
theorem print_succ (indent : Nat) : (e : Expr) → Unbroken e.names →
    e.print (indent + 1) = deeper (e.print indent)
  | ident name, h => by
    rw [names, collect, ownNames, unbroken_cons] at h
    simp [print, h.1]
  | literal l, _ => by
    simp [print, l.not_mem_print]
  | select x field, h => by
    rw [names, collect, ownNames, unbroken_append, unbroken_cons] at h
    have hx := print_succ indent x h.2
    simp [print, hx, h.1.1]
  | call function args, h => by
    rw [names, collect, ownNames, unbroken_append, unbroken_append] at h
    have hfunction := print_succ indent function h.1.2
    have hargs := printArgs_succ indent args h.2
    simp [print, hfunction, hargs]
  | index x i, h => by
    rw [names, collect, ownNames, unbroken_append, unbroken_append] at h
    have hx := print_succ indent x h.1.2
    have hi := print_succ indent i h.2
    simp [print, hx, hi]
  | mapOf type [], h => by
    rw [names, collect, ownNames, unbroken_append] at h
    simp [print, Ty.not_mem_print h.1]
  | mapOf type (entry :: entries), h => by
    -- no other expression has line feeds of its own
    rw [names, collect, ownNames, unbroken_append] at h
    have hentries := shifts_printEntries (indent + 1) (entry :: entries) h.2
    rw [print_mapOf_cons, print_mapOf_cons, deeper_append, hentries.deeper_block,
      deeper_of_not_mem (Ty.not_mem_print h.1)]
  | emptyOf type, h => by
    rw [names, collect, ownNames] at h
    simp [print, Ty.not_mem_print h]
  | compare left op right, h => by
    rw [names, collect, ownNames, unbroken_append, unbroken_append] at h
    have hleft := print_succ indent left h.1.2
    have hright := print_succ indent right h.2
    cases op <;> simp [print, Comparison.print, hleft, hright]
  | not x, h => by
    rw [names, collect, ownNames, List.nil_append] at h
    simp [print, print_succ indent x h]
  | addressOf x, h => by
    rw [names, collect, ownNames, List.nil_append] at h
    simp [print, print_succ indent x h]
  | assertType x type, h => by
    rw [names, collect, ownNames, unbroken_append] at h
    have hx := print_succ indent x h.2
    simp [print, hx, Ty.not_mem_print h.1]
  | receive channel, h => by
    rw [names, collect, ownNames, List.nil_append] at h
    simp [print, print_succ indent channel h]

theorem printArgs_succ (indent : Nat) : (xs : List Expr) → Unbroken (collectArgs ownNames xs) →
    printArgs (indent + 1) xs = (printArgs indent xs).map deeper
  | [], _ => by rw [printArgs, printArgs, List.map_nil]
  | x :: xs, h => by
    rw [collectArgs, unbroken_append] at h
    rw [printArgs, printArgs, List.map_cons, print_succ indent x h.1, printArgs_succ indent xs h.2]

/-- The entries of a map are whole lines. -/
theorem shifts_printEntries (indent : Nat) : (entries : List (Expr × Expr)) →
    Unbroken (collectEntries ownNames entries) →
    Shifts (printEntries indent entries) (printEntries (indent + 1) entries)
  | [], _ => by
    rw [printEntries, printEntries]
    exact shifts_empty
  | (key, value) :: entries, h => by
    rw [collectEntries, unbroken_append, unbroken_append] at h
    have hentry : key.print (indent + 1) ++ ": " ++ value.print (indent + 1) ++ ","
        = deeper (key.print indent ++ ": " ++ value.print indent ++ ",") := by
      simp [print_succ indent key h.1.1, print_succ indent value h.1.2]
    rw [printEntries_cons, printEntries_cons, hentry]
    exact (shifts_line indent _).append (shifts_printEntries indent entries h.2)

end

end Expr

/-! ## Statements -/

namespace Stmt

/-- A statement as it stands between the tabs before it and the line feed behind it. -/
def within (indent : Nat) : Stmt → String
  | define names value => commaSeparated names ++ " := " ++ value.print indent
  | assign target value => target.print indent ++ " = " ++ value.print indent
  | .return values => printReturn indent values
  | ifThen condition body =>
    "if " ++ condition.print indent ++ " " ++ block indent (printAll (indent + 1) body)
  | forRange key value items body =>
    "for " ++ key ++ ", " ++ value ++ " := range " ++ items.print indent ++ " " ++
      block indent (printAll (indent + 1) body)
  | declare name type => "var " ++ name ++ " " ++ type.print
  | comment text => "// " ++ text

theorem print_eq_within (indent : Nat) (s : Stmt) :
    s.print indent = tabs indent ++ s.within indent ++ "\n" := by
  have hopen : " \x7b\n" = " " ++ "\x7b\n" := rfl
  have hclose : "\x7d\n" = "\x7d" ++ "\n" := rfl
  cases s <;> simp only [print, within, block, hopen, hclose, String.append_assoc]

theorem shifts_print_of_within {s : Stmt} {indent : Nat}
    (h : s.within (indent + 1) = deeper (s.within indent)) :
    Shifts (s.print indent) (s.print (indent + 1)) := by
  rw [print_eq_within, print_eq_within, h]
  exact shifts_line indent (s.within indent)

theorem getLast?_print (indent : Nat) (s : Stmt) :
    (s.print indent).toList.getLast? = some '\n' := by
  rw [print_eq_within]
  exact getLast?_append_line rfl

-- By the form of the statement: a body moves as whole lines, and its braces make it part of a line.
mutual

theorem within_succ (indent : Nat) : (s : Stmt) → Unbroken (s.fromExprs Expr.ownNames) →
    Unbroken (s.fromStmts ownTexts) → s.within (indent + 1) = deeper (s.within indent)
  | define names value, hexprs, hstmts => by
    rw [fromExprs] at hexprs
    rw [fromStmts, ownTexts] at hstmts
    simp [within, value.print_succ indent hexprs, map_deeper hstmts]
  | assign target value, hexprs, _ => by
    rw [fromExprs, unbroken_append] at hexprs
    simp [within, target.print_succ indent hexprs.1, value.print_succ indent hexprs.2]
  | .return values, hexprs, _ => by
    rw [fromExprs, ← Expr.collectArgs_eq] at hexprs
    have hvalues := Expr.printArgs_succ indent values hexprs
    rw [within, within, printReturn, printReturn]
    split
    · rfl
    · simp [hvalues]
  | ifThen condition body, hexprs, hstmts => by
    rw [fromExprs, unbroken_append] at hexprs
    rw [fromStmts, ownTexts, List.nil_append] at hstmts
    have hbody := shifts_printAll (indent + 1) body hexprs.2 hstmts
    simp [within, condition.print_succ indent hexprs.1, hbody.deeper_block]
  | forRange key value items body, hexprs, hstmts => by
    rw [fromExprs, unbroken_append] at hexprs
    rw [fromStmts, ownTexts, unbroken_append, unbroken_cons, unbroken_cons] at hstmts
    have hbody := shifts_printAll (indent + 1) body hexprs.2 hstmts.2
    simp [within, items.print_succ indent hexprs.1, hbody.deeper_block, hstmts.1.1, hstmts.1.2.1]
  | declare name type, _, hstmts => by
    rw [fromStmts, ownTexts, unbroken_cons] at hstmts
    simp [within, hstmts.1, Ty.not_mem_print hstmts.2]
  | comment text, _, hstmts => by
    rw [fromStmts, ownTexts, unbroken_cons] at hstmts
    simp [within, hstmts.1]

theorem shifts_printAll (indent : Nat) : (body : List Stmt) →
    Unbroken (fromExprsOfAll Expr.ownNames body) → Unbroken (fromStmtsOfAll ownTexts body) →
    Shifts (printAll indent body) (printAll (indent + 1) body)
  | [], _, _ => by
    rw [printAll, printAll]
    exact shifts_empty
  | s :: rest, hexprs, hstmts => by
    rw [fromExprsOfAll, unbroken_append] at hexprs
    rw [fromStmtsOfAll, unbroken_append] at hstmts
    have hfirst := shifts_print_of_within (within_succ indent s hexprs.1 hstmts.1)
    rw [printAll, printAll]
    exact hfirst.append (shifts_printAll indent rest hexprs.2 hstmts.2)

end

end Stmt

/-! ## Lines -/

/-- The lines of a text, each ended by a line feed; what follows the last line feed is left out. -/
def lines (text : String) : List (List Char) := (text.toList.splitOn '\n').dropLast

/-- A tab in front of each line is one at the start and one behind each line feed. -/
theorem splitOn_flatMap_deeperChar (cs : List Char) :
    ('\t' :: cs.flatMap deeperChar).splitOn '\n' = (cs.splitOn '\n').map ('\t' :: ·) := by
  induction cs with
  | nil => rfl
  | cons c cs ih =>
    by_cases hfeed : c = '\n'
    · have hline : '\n' ∉ ['\t'] := by decide
      calc ('\t' :: (c :: cs).flatMap deeperChar).splitOn '\n'
          = (['\t'] ++ '\n' :: ('\t' :: cs.flatMap deeperChar)).splitOn '\n' := by
            rw [List.flatMap_cons, hfeed]
            rfl
        _ = ['\t'] :: (cs.splitOn '\n').map ('\t' :: ·) := by
            rw [List.splitOn_append_cons_self_of_not_mem hline, ih]
        _ = ((c :: cs).splitOn '\n').map ('\t' :: ·) := by
            simp [List.splitOn_cons_eq_if_modifyHead, hfeed]
    · -- the first line grows by the same character on both sides
      obtain ⟨first, others, hshifted⟩ := List.exists_cons_of_ne_nil
        (List.splitOn_ne_nil '\n' (cs.flatMap deeperChar))
      obtain ⟨line, rest, hplain⟩ := List.exists_cons_of_ne_nil (List.splitOn_ne_nil '\n' cs)
      have hsame : first = line ∧ others = rest.map ('\t' :: ·) := by
        simpa [List.splitOn_cons_eq_if_modifyHead, hshifted, hplain] using ih
      simp [List.splitOn_cons_eq_if_modifyHead, deeperChar, hfeed, hshifted, hplain, hsame]

theorem Shifts.lines_eq {a b : String} (h : Shifts a b) (hend : b.toList.getLast? = some '\n') :
    lines b = (lines a).map ('\t' :: ·) := by
  obtain ⟨front, hfront⟩ := List.getLast?_eq_some_iff.1 hend
  have htext : '\t' :: a.toList.flatMap deeperChar = front ++ '\n' :: ['\t'] := by
    simpa [deeper, hfront] using congrArg String.toList h
  have hlast : ['\t'].splitOn '\n' = [['\t']] := rfl
  rw [lines, lines, List.map_dropLast, ← splitOn_flatMap_deeperChar, htext, hfront,
    List.splitOn_append_cons_self, List.splitOn_append_cons_self, hlast, List.splitOn_nil,
    List.dropLast_concat, List.dropLast_concat]

namespace Stmt

theorem lines_print_succ {s : Stmt} (h : Unbroken s.texts) (indent : Nat) :
    lines (s.print (indent + 1)) = (lines (s.print indent)).map ('\t' :: ·) := by
  obtain ⟨hexprs, hstmts⟩ := unbroken_append.1 h
  have hshifts := shifts_print_of_within (within_succ indent s hexprs hstmts)
  exact hshifts.lines_eq (s.getLast?_print (indent + 1))

/-- Every line starts with all tabs of its level. -/
theorem tabs_isPrefix_of_mem_lines {s : Stmt} (h : Unbroken s.texts) {indent : Nat}
    {line : List Char} (hline : line ∈ lines (s.print indent)) :
    List.replicate indent '\t' <+: line := by
  induction indent generalizing line with
  | zero => exact List.nil_prefix
  | succ indent ih =>
    rw [lines_print_succ h] at hline
    obtain ⟨before, hbefore, rfl⟩ := List.mem_map.1 hline
    rw [List.replicate_succ]
    exact List.cons_prefix_cons.2 ⟨rfl, ih hbefore⟩

/-- **Indentation is a uniform shift.** For a statement without line feeds in names and comments,
    whatever its string literals hold, one level more puts one tab in front of every line. The text
    ends with a line feed, and no line has fewer tabs in front than its level. -/
theorem indentation_shifts_lines {s : Stmt} (h : Unbroken s.texts) (indent : Nat) :
    lines (s.print (indent + 1)) = (lines (s.print indent)).map ('\t' :: ·) ∧
    (s.print indent).toList.getLast? = some '\n' ∧
    ∀ line ∈ lines (s.print indent), List.replicate indent '\t' <+: line :=
  ⟨lines_print_succ h indent, s.getLast?_print indent,
    fun _ hline => tabs_isPrefix_of_mem_lines h hline⟩

/-- A condition in a loop, and in it a map in a map as the argument of a call. One of the texts has
    a line feed. -/
def nestedMaps : Stmt :=
  .forRange "key" "value" (.ident "options") [
    .comment "only what is set",
    .ifThen (.compare (.ident "value") .notEqual .nil) [
      .assign (.index (.ident "params") (.ident "key"))
        (.select
          (.call (.ident "wrap") [.mapOf .payload [
            (.string "two\nlines", .mapOf .payload [(.string "value", .ident "value")]),
            (.string "empty", .mapOf .payload [])]])
          "Value")]]

theorem nestedMaps_indentation_shifts_lines :
    Unbroken nestedMaps.texts ∧
    lines (nestedMaps.print 2) = (lines (nestedMaps.print 1)).map ('\t' :: ·) ∧
    (nestedMaps.print 1).toList.getLast? = some '\n' ∧
    ∀ line ∈ lines (nestedMaps.print 1), ['\t'] <+: line := by
  have hunbroken : Unbroken nestedMaps.texts := by
    unfold Unbroken
    decide +kernel
  exact ⟨hunbroken, indentation_shifts_lines hunbroken 1⟩

end Stmt

end Go

end GoBindings
