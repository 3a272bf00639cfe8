import GoBindings.Proofs.Identifiers
import GoBindings.Proofs.MapKeys
import GoBindings.Proofs.Run
import GoBindings.Proofs.StringLiterals

set_option autoImplicit false

/-! # Imports

Go refuses a package that is imported and not used, and one that is used and not imported. What a
piece of code selects from is compared with the packages that are noted beside it: the two agree for
every argument, every method and every constructor, and so for every file. No variable is called
like a package, so a selection from such a name does mean the package. That the list is what a file
imports is seen from its text: a reader takes the packages off the lines behind the package clause,
and finds the list again (`File.exists_importsOf_eq`, `File.importsIn_print`). -/

namespace GoBindings

namespace Go

/-! ## The list in the text of a file -/

/-- The text that a string literal stands for, if it is one. -/
def literal? (cs : List Char) : Option String :=
  match readString cs with
  | some (s, []) => some s
  | _ => none

/-- The packages that lines of a file import, up to the first line that is neither empty nor part of
    an import declaration. In a group there is one to a line. -/
def importLines : Bool → List (List Char) → List String
  | _, [] => []
  | false, line :: rest =>
    if line = [] then importLines false rest
    else if line = "import (".toList then importLines true rest
    else if "import ".toList.isPrefixOf line then
      match literal? (line.drop 7) with
      | some package => package :: importLines false rest
      | none => []
    else []
  | true, line :: rest =>
    if line = [')'] then importLines false rest
    else
      match literal? (line.dropWhile fun c => c == '\t') with
      | some package => package :: importLines true rest
      | none => []

/-- The packages that a text imports. -/
def importsOf (cs : List Char) : List String := importLines false (cs.splitOn '\n')

def isPackageClause (line : List Char) : Bool := "package ".toList.isPrefixOf line

/-- The packages that the text of a file imports after the line with its package clause. -/
def importsIn (text : String) : List String :=
  importLines false
    ((text.toList.splitOn '\n').dropWhile fun line => !isPackageClause line).tail

theorem literal?_quote (s : String) : literal? (quote s).toList = some s := by
  have hread : readString (quote s).toList = some (s, []) := by
    simpa using readString_quote s []
  rw [literal?, hread]

theorem importLines_empty (rest : List (List Char)) :
    importLines false ([] :: rest) = importLines false rest := by
  rw [importLines, if_pos rfl]

theorem importLines_single (package : String) (rest : List (List Char)) :
    importLines false (("import ".toList ++ (quote package).toList) :: rest)
      = package :: importLines false rest := by
  have hgroup : "import ".toList ++ (quote package).toList ≠ "import (".toList := by
    rw [toList_quote]
    simp
  have hdrop : ("import ".toList ++ (quote package).toList).drop 7 = (quote package).toList :=
    rfl
  rw [importLines, if_neg (by simp), if_neg hgroup, if_pos (by simp), hdrop, literal?_quote]

theorem importLines_group (packages : List String) (rest : List (List Char)) :
    importLines true (packages.map (fun package => '\t' :: (quote package).toList) ++ [')'] :: rest)
      = packages ++ importLines false rest := by
  induction packages with
  | nil => rw [List.map_nil, List.nil_append, importLines, if_pos rfl, List.nil_append]
  | cons package packages ih =>
    have hdrop : ('\t' :: (quote package).toList).dropWhile (fun c => c == '\t')
        = (quote package).toList := by
      rw [toList_quote]
      rfl
    rw [List.map_cons, List.cons_append, importLines, if_neg (by simp), hdrop, literal?_quote]
    simp only [ih, List.cons_append]

theorem head?_printDoc (doc : List String) :
    (printDoc 0 doc).toList.head? = none ∨ (printDoc 0 doc).toList.head? = some '/' := by
  cases doc with
  | nil => exact Or.inl rfl
  | cons line doc => simp [printDoc, tabs]

/-- A declaration that has any text starts with a comment or with its keyword. -/
theorem Decl.head?_print (d : Decl) :
    d.print.toList.head? ∈ [none, some '/', some 't', some 'f', some 'c'] := by
  cases d with
  | type d => rcases head?_printDoc d.doc with h | h <;> simp [Decl.print, TypeDecl.print, h]
  | func f => rcases head?_printDoc f.doc with h | h <;> simp [Decl.print, Func.print, h]
  | consts cs => cases cs <;> simp [Decl.print]

theorem importsOf_of_head? {cs : List Char}
    (h : cs.head? ∈ [some '/', some 't', some 'f', some 'c']) : importsOf cs = [] := by
  cases cs with
  | nil => simp at h
  | cons c cs =>
    obtain ⟨line, rest, hlines⟩ := List.exists_cons_of_ne_nil (List.splitOn_ne_nil '\n' cs)
    have hfeed : c ≠ '\n' := by
      rintro rfl
      simp at h
    have hother : 'i' ≠ c := by
      rintro rfl
      simp at h
    have hgroup : c :: line ≠ "import (".toList := fun heq => hother (List.cons.inj heq).1.symm
    have hword : ¬ "import ".toList.isPrefixOf (c :: line) = true := by
      intro hstarts
      exact hother (List.cons_prefix_cons.1 (List.isPrefixOf_iff_prefix.1 hstarts)).1
    rw [importsOf, List.splitOn_cons_eq_if_modifyHead, if_neg (by simpa using hfeed), hlines,
      List.modifyHead_cons, importLines, if_neg (List.cons_ne_nil c line), if_neg hgroup,
      if_neg hword]

theorem importsOf_newline (cs : List Char) : importsOf ('\n' :: cs) = importsOf cs := by
  rw [importsOf, ← List.nil_append ('\n' :: cs),
    List.splitOn_append_cons_self_of_not_mem List.not_mem_nil, importLines_empty, importsOf]

/-- No declaration reads as an import. -/
theorem importsOf_decls (decls : List Decl) :
    importsOf (String.join (decls.map File.printDecl)).toList = [] := by
  induction decls with
  | nil => rfl
  | cons d decls ih =>
    rw [List.map_cons, String.join_cons, String.toList_append]
    simp only [File.printDecl]
    split
    · exact ih
    · next htext =>
      have hhead := d.head?_print
      rw [String.isEmpty_iff, ← String.toList_eq_nil_iff] at htext
      obtain ⟨c, cs, hprint⟩ := List.exists_cons_of_ne_nil htext
      rw [hprint, List.head?_cons] at hhead
      rw [String.toList_append, List.append_assoc, hprint]
      refine (importsOf_newline _).trans (importsOf_of_head? ?_)
      simpa using hhead

/-- The lines of a group. -/
theorem splitOn_group (packages : List String) (rest : List Char) :
    ((String.join (packages.map fun i => "\t" ++ quote i ++ "\n")).toList ++ rest).splitOn '\n'
      = packages.map (fun package => '\t' :: (quote package).toList) ++ rest.splitOn '\n' := by
  induction packages with
  | nil => rfl
  | cons package packages ih =>
    have hline : '\n' ∉ '\t' :: (quote package).toList := by simp [not_mem_quote]
    have htext : (String.join ((package :: packages).map fun i => "\t" ++ quote i ++ "\n")).toList
        ++ rest = ('\t' :: (quote package).toList) ++ '\n' ::
          ((String.join (packages.map fun i => "\t" ++ quote i ++ "\n")).toList ++ rest) := by
      simp
    rw [htext, List.splitOn_append_cons_self_of_not_mem hline, ih, List.map_cons, List.cons_append]

namespace File

theorem importsOf_printImports (imports : List String) {rest : List Char}
    (hrest : importsOf rest = []) :
    importsOf ((printImports imports).toList ++ rest) = imports := by
  match imports with
  | [] => exact hrest
  | [package] =>
    have hline : '\n' ∉ "import ".toList ++ (quote package).toList := by simp [not_mem_quote]
    have htext : (printImports [package]).toList ++ rest
        = '\n' :: (("import ".toList ++ (quote package).toList) ++ '\n' :: rest) := by
      simp [printImports]
    rw [htext, importsOf_newline, importsOf, List.splitOn_append_cons_self_of_not_mem hline,
      importLines_single]
    exact congrArg _ hrest
  | first :: second :: more =>
    have hopen : '\n' ∉ "import (".toList := by decide
    have hclose : '\n' ∉ [')'] := by decide
    have htext : (printImports (first :: second :: more)).toList ++ rest
        = '\n' :: ("import (".toList ++ '\n' ::
          ((String.join ((first :: second :: more).map fun i => "\t" ++ quote i ++ "\n")).toList ++
            ([')'] ++ '\n' :: rest))) := by
      simp [printImports]
    rw [htext, importsOf_newline, importsOf, List.splitOn_append_cons_self_of_not_mem hopen,
      splitOn_group, List.splitOn_append_cons_self_of_not_mem hclose, importLines,
      if_neg (by decide), if_pos rfl, importLines_group]
    exact (congrArg _ hrest).trans (List.append_nil _)

/-- **The imports of a file are read back from its text**, behind the package clause. -/
theorem exists_importsOf_eq (f : File) :
    ∃ rest, f.print = f.opening ++ rest ∧ importsOf rest.toList = f.imports := by
  refine ⟨printImports f.imports ++ String.join (f.decls.map printDecl), String.append_assoc, ?_⟩
  rw [String.toList_append]
  exact importsOf_printImports f.imports (importsOf_decls f.decls)

theorem dropWhile_printDoc {doc : List String} (h : Unbroken doc) (rest : List Char) :
    (((printDoc 0 doc).toList ++ rest).splitOn '\n').dropWhile (fun line => !isPackageClause line)
      = (rest.splitOn '\n').dropWhile fun line => !isPackageClause line := by
  induction doc with
  | nil => rfl
  | cons line doc ih =>
    obtain ⟨hline, hdoc⟩ := List.forall_mem_cons.1 h
    have hone : '\n' ∉ '/' :: '/' :: ' ' :: line.toList := by simp [hline]
    have htext : (printDoc 0 (line :: doc)).toList ++ rest
        = ('/' :: '/' :: ' ' :: line.toList) ++ '\n' :: ((printDoc 0 doc).toList ++ rest) := by
      simp [printDoc, tabs]
    rw [htext, List.splitOn_append_cons_self_of_not_mem hone, List.dropWhile_cons_of_pos rfl,
      ih hdoc]

/-- If the comment and the package clause are on lines of their own, the imports are found in the
    whole text. -/
theorem importsIn_print {f : File} (hheader : Unbroken f.header)
    (hpackage : '\n' ∉ f.package.toList) : importsIn f.print = f.imports := by
  obtain ⟨rest, hprint, hrest⟩ := f.exists_importsOf_eq
  let clause := "package ".toList ++ f.package.toList
  have hclause : '\n' ∉ clause := by simp [clause, hpackage]
  have hlines : ((clause ++ '\n' :: rest.toList).splitOn '\n').dropWhile
      (fun line => !isPackageClause line) = clause :: rest.toList.splitOn '\n' := by
    rw [List.splitOn_append_cons_self_of_not_mem hclause,
      List.dropWhile_cons_of_neg (by simp [clause, isPackageClause])]
  rw [importsIn, hprint]
  -- only behind a comment does an empty line stand before the clause
  cases hempty : f.header with
  | nil =>
    have htext : (f.opening ++ rest).toList = clause ++ '\n' :: rest.toList := by
      simp [opening, hempty, clause]
    rw [htext, hlines]
    exact hrest
  | cons line doc =>
    have htext : (f.opening ++ rest).toList = (printDoc 0 f.header).toList ++
        ([] ++ '\n' :: (clause ++ '\n' :: rest.toList)) := by
      simp [opening, hempty, clause]
    rw [htext, dropWhile_printDoc hheader,
      List.splitOn_append_cons_self_of_not_mem List.not_mem_nil, List.dropWhile_cons_of_pos rfl,
      hlines]
    exact hrest

end File

end Go

open Go (Expr Stmt)

namespace Binding

/-! ## Methods -/

namespace Param

variable (style : OptionalStyle) (p : Param)

@[simp]
theorem selections_guard : (p.guard style).collect Expr.ownSelection = p.guardPackages style := by
  unfold guard guardPackages
  split
  · simp [ident, Expr.nil, Expr.collect, Expr.ownSelection]
  · generalize p.type.required = type
    cases type with
    | primitive q =>
      cases q <;> simp [ident, Expr.zero, Expr.collect, Expr.ownSelection]
    | _ => simp [ident, Expr.nil, Expr.zero, Expr.collect, Expr.ownSelection]

@[simp]
theorem selections_wireValue : p.wireValue.collect Expr.ownSelection = p.wirePackages := by
  unfold wireValue wirePackages
  split <;> simp [textForm, textFormPackages, ident, Expr.collect, Expr.ownSelection]

@[simp]
theorem selections_send : (p.send style).selections = p.packages style := by
  simp [send, packages, Stmt.selections, Stmt.fromExprs, Expr.collect, Expr.ownSelection]

@[simp]
theorem binds_send : (p.send style).binds = [] := by
  simp [send, Stmt.binds, Stmt.fromStmts, Stmt.ownBinds]

end Param

theorem selections_returnStmts (code : CodeSettings) (result : Option Resolved) :
    (returnStmts code result).flatMap Stmt.selections ⊆ ["response"] := by
  have hplaceholder : ∀ type, (placeholder type).collect Expr.ownSelection = [] := by
    intro type
    cases type <;> simp [placeholder, Expr.collect, Expr.ownSelection]
  have hvalue : ∀ s : Scalar, s.value.collect Expr.ownSelection = [] := by
    intro s
    unfold Scalar.value
    split <;> simp [Expr.collect, Expr.ownSelection]
  have hblock := returnBlock_returnStmts code result
  generalize returnStmts code result = block at hblock ⊢
  cases hblock <;>
    simp [Stmt.selections, Stmt.fromExprs, Scalar.take, failEarly, responseError, Expr.nil,
      Expr.collect, Expr.ownSelection, hvalue, hplaceholder]

theorem binds_returnStmts (code : CodeSettings) (result : Option Resolved) :
    (returnStmts code result).flatMap Stmt.binds ⊆ ["value", "_", "result", "ret"] := by
  have hblock := returnBlock_returnStmts code result
  generalize returnStmts code result = block at hblock ⊢
  cases hblock <;> simp [Stmt.binds, Stmt.fromStmts, Stmt.ownBinds, Scalar.take, failEarly]

namespace Method

variable (code : CodeSettings) (m : Method)

/-- Beside packages, a body selects only from the object and from the response. -/
theorem mem_selections_stubBody_iff {name : String} (h : name ∈ ["fmt", "reflect"]) :
    name ∈ (m.stubBody code).flatMap Stmt.selections ↔ name ∈ m.packages code.optionalStyle := by
  have hargs : (m.collectArgs code.optionalStyle).flatMap Stmt.selections
      = m.packages code.optionalStyle := by
    simp only [flatMap_collectArgs, Param.selections_send, packages]
    cases m.params <;> simp [Stmt.selections, Stmt.fromExprs, Expr.collect, Expr.ownSelection]
  have hpayload : m.payload.flatMap
      (fun e => e.1.collect Expr.ownSelection ++ e.2.collect Expr.ownSelection) = ["elem"] := by
    unfold payload
    split <;> simp [Expr.collect, Expr.ownSelection]
  have helem : name ≠ "elem" := by
    rintro rfl
    revert h
    decide
  have hreturn : name ∉ (returnStmts code m.result).flatMap Stmt.selections := by
    intro hmem
    obtain rfl := List.mem_singleton.1 (selections_returnStmts code m.result hmem)
    revert h
    decide
  unfold stubBody
  simp only [List.flatMap_append, hargs, List.mem_append, hreturn]
  simp [Stmt.selections, Stmt.fromExprs, Expr.collect, Expr.ownSelection, hpayload, helem]

theorem binds_collectArgs (style : OptionalStyle) : (m.collectArgs style).flatMap Stmt.binds =
    if m.params.isEmpty then [] else ["params"] := by
  have hsends : m.params.flatMap (fun p => (p.send style).binds) = [] :=
    List.flatMap_eq_nil_iff.2 fun p _ => p.binds_send style
  rw [flatMap_collectArgs, hsends]
  simp [Stmt.binds, Stmt.fromStmts, Stmt.ownBinds]

theorem binds_stubBody : (m.stubBody code).flatMap Stmt.binds ⊆
    ["req", "params", "response", "value", "_", "result", "ret"] := by
  have hargs : (m.collectArgs code.optionalStyle).flatMap Stmt.binds ⊆ ["params"] := by
    rw [binds_collectArgs]
    split <;> simp
  unfold stubBody
  simp only [List.flatMap_append, List.append_subset]
  refine ⟨⟨⟨?_, ?_⟩, ?_⟩, ?_⟩
  · simp [Stmt.binds, Stmt.fromStmts, Stmt.ownBinds]
  · exact List.Subset.trans hargs (by simp)
  · simp [Stmt.binds, Stmt.fromStmts, Stmt.ownBinds]
  · exact List.Subset.trans (binds_returnStmts code m.result) (by simp)

end Method

/-! ## Constructors -/

/-- What is filled in selects from what the seed needs. -/
theorem Seed.selections_entry? (s : Seed) :
    (s.entry?.toList.flatMap fun e =>
      e.1.collect Expr.ownSelection ++ e.2.collect Expr.ownSelection) = s.packages := by
  -- a seed without an entry is never one for a remote object, so it needs no package either
  unfold Seed.entry? Seed.packages Seed.value?
  generalize s.type.required = type
  cases type with
  | remote name =>
    simp [Resolved.isRemote, textForm, textFormPackages, Expr.collect, Expr.ownSelection]
  | primitive p =>
    cases s.default <;> simp [Resolved.isRemote, Expr.collect, Expr.ownSelection]
  | enum name =>
    rcases s.default with _ | d
    · simp [Resolved.isRemote]
    · cases d <;> simp [Resolved.isRemote, Expr.collect, Expr.ownSelection]
  | _ => simp [Resolved.isRemote]

theorem selections_constructorBody (seeds : List Seed) :
    (constructorBody seeds).flatMap Stmt.selections = seeds.flatMap Seed.packages := by
  have hentries : (seeds.filterMap Seed.entry?).flatMap
      (fun e => e.1.collect Expr.ownSelection ++ e.2.collect Expr.ownSelection)
      = seeds.flatMap Seed.packages := by
    rw [List.filterMap_eq_flatMap_toList, List.flatMap_assoc]
    exact List.flatMap_congr fun s _ => s.selections_entry?
  unfold constructorBody
  split
  · next hempty =>
    rw [List.isEmpty_iff.1 hempty]
    simp [Stmt.selections, Stmt.fromExprs, Expr.collect, Expr.ownSelection]
  · simp [Stmt.selections, Stmt.fromExprs, Expr.collect, Expr.ownSelection, hentries]

theorem binds_constructorBody (seeds : List Seed) :
    (constructorBody seeds).flatMap Stmt.binds ⊆ ["ret", "key", "value"] := by
  unfold constructorBody
  split <;> simp [Stmt.binds, Stmt.fromStmts, Stmt.ownBinds]

/-! ## Units -/

theorem Param.packages_subset (style : OptionalStyle) (p : Param) :
    p.packages style ⊆ ["fmt", "reflect"] := by
  have hguard : p.guardPackages style ⊆ ["reflect"] := by
    unfold guardPackages
    split
    · exact List.nil_subset _
    · split
      · exact List.Subset.refl _
      · exact List.nil_subset _
  have hwire : p.wirePackages ⊆ ["fmt"] := by
    unfold wirePackages
    split
    · exact List.Subset.refl _
    · exact List.nil_subset _
  unfold packages
  refine List.append_subset.2 ⟨fun name hname => ?_, fun name hname => ?_⟩
  · exact List.mem_cons_of_mem _ (hguard hname)
  · rw [List.mem_singleton.1 (hwire hname)]
    exact List.mem_cons_self

theorem Seed.packages_subset (s : Seed) : s.packages ⊆ ["fmt", "reflect"] := by
  unfold packages
  split
  · exact List.cons_subset_cons _ (List.nil_subset _)
  · exact List.nil_subset _

/-- The imports are the packages from which something is selected, and no variable is called like
    one. -/
structure ImportsMatch (imports : List String) (decls : List Go.Decl) : Prop where
  mem_iff : ∀ p, p ∈ imports ↔ p ∈ ["fmt", "reflect"] ∧ ∃ d ∈ decls, p ∈ d.selections
  free : ∀ d ∈ decls, ∀ name ∈ d.binds, name ∉ ["fmt", "reflect"]

/-- Of the declarations for a data type only the one that spells out an enumeration is a
    function. -/
theorem eq_stringerFunc_of_mem {registry : Registry} {code : CodeSettings} {t : Interface.DataType}
    {u : CodeUnit} (h : typeUnit registry code t = .ok u) {f : Go.Func} (hf : .func f ∈ u.decls) :
    f = stringerFunc t.name := by
  obtain ⟨decls, rfl, hshape⟩ := typeUnit_eq_ok_iff.1 h
  cases hkind : t.shape with
  | enum values =>
    rw [hkind] at hshape
    obtain ⟨-, rfl⟩ := enumDecls_eq_ok_iff.1 hshape
    rcases List.mem_cons.1 hf with heq | hf
    · cases heq
    · rcases List.mem_cons.1 hf with heq | hf
      · cases heq
        rfl
      · split at hf
        · exact absurd hf List.not_mem_nil
        · cases List.mem_singleton.1 hf
  | record base fields =>
    rw [hkind] at hshape
    obtain ⟨own, -, -, rfl⟩ := recordDecls_eq_ok_iff.1 hshape
    cases List.mem_singleton.1 hf

theorem importsMatch_typeUnit {registry : Registry} {code : CodeSettings} {t : Interface.DataType}
    {u : CodeUnit} (h : typeUnit registry code t = .ok u) : ImportsMatch u.imports u.decls := by
  have himports : u.imports = [] := by
    obtain ⟨decls, rfl, -⟩ := typeUnit_eq_ok_iff.1 h
    rfl
  constructor
  · intro p
    have hnone : (stringerFunc t.name).body.flatMap Stmt.selections = [] := by
      simp [stringerFunc, Stmt.selections, Stmt.fromExprs, Expr.collect, Expr.ownSelection]
    rw [himports, Go.Decl.exists_mem_selections_iff]
    constructor
    · intro hp
      exact absurd hp List.not_mem_nil
    · rintro ⟨-, f, hf, hp⟩
      rw [eq_stringerFunc_of_mem h hf, hnone] at hp
      exact absurd hp List.not_mem_nil
  · intro d hd name hname
    obtain ⟨f, hf, hname⟩ := Go.Decl.exists_func_of_mem_binds hd hname
    rw [eq_stringerFunc_of_mem h hf] at hname
    have hbinds : (stringerFunc t.name).binds = ["t"] := by
      simp [stringerFunc, Go.Func.binds, Stmt.binds, Stmt.fromStmts, Stmt.ownBinds]
    rw [hbinds] at hname
    rw [List.mem_singleton.1 hname]
    decide

theorem Method.binds_stub (m : Method) (code : CodeSettings) (className : String) :
    (m.stub code className).binds
      = "elem" :: m.params.map Param.goName ++ (m.stubBody code).flatMap Stmt.binds := by
  have hparams : (m.goParams code.optionalStyle).map Go.Param.name = m.params.map Param.goName := by
    simp [goParams, Param.goParam, Function.comp_def]
  rw [Go.Func.binds, stub, hparams]
  rfl

theorem Method.not_mem_binds_stub {registry : Registry} {owner : String}
    {declared : Interface.Method} {m : Method} (h : ofInterface registry owner declared = .ok m)
    (code : CodeSettings) {name : String} (hname : name ∈ (m.stub code owner).binds) :
    name ∉ ["fmt", "reflect"] := by
  rw [m.binds_stub, List.cons_append, List.mem_cons, List.mem_append] at hname
  rcases hname with rfl | hparam | hlocal
  · decide
  · obtain ⟨p, hp, rfl⟩ := List.mem_map.1 hparam
    -- names of packages are among those that parameters are kept away from
    have hreserved : ∀ n ∈ ["fmt", "reflect"], n ∈ Identifier.reservedLocals := by decide
    intro hpackage
    rw [(names_of_ofInterface h).1 p hp] at hpackage
    exact Identifier.param_not_mem_reservedLocals _ (hreserved _ hpackage)
  · have hlocals : ∀ n ∈ ["req", "params", "response", "value", "_", "result", "ret"],
        n ∉ ["fmt", "reflect"] := by decide
    exact hlocals name (m.binds_stubBody code hlocal)

theorem not_mem_binds_constructorFunc (code : CodeSettings) (className : String)
    (seeds : List Seed) {name : String}
    (hname : name ∈ (constructorFunc code className seeds).binds) : name ∉ ["fmt", "reflect"] := by
  have hlocals : ∀ n ∈ ["elem", "from", "options", "ret", "key", "value"],
      n ∉ ["fmt", "reflect"] := by decide
  refine hlocals name ?_
  rcases List.mem_append.1 hname with hparam | hlocal
  · exact List.mem_append_left ["ret", "key", "value"] hparam
  · exact List.mem_append_right ["elem", "from", "options"] (binds_constructorBody seeds hlocal)

theorem mem_classImports_iff {code : CodeSettings} {methods : List Method} {seeds : List Seed}
    {p : String} :
    p ∈ classImports code methods seeds ↔
      p ∈ seeds.flatMap Seed.packages ∨ ∃ m ∈ methods, p ∈ m.packages code.optionalStyle := by
  rw [classImports, NameSet.mem_ofList, List.mem_append]
  exact or_congr_right List.mem_flatMap

theorem classImports_subset (code : CodeSettings) (methods : List Method) (seeds : List Seed) :
    classImports code methods seeds ⊆ ["fmt", "reflect"] := by
  intro p hp
  rcases mem_classImports_iff.1 hp with hseed | ⟨m, -, hmethod⟩
  · obtain ⟨s, -, hs⟩ := List.mem_flatMap.1 hseed
    exact s.packages_subset hs
  · obtain ⟨param, -, hparam⟩ := List.mem_flatMap.1 hmethod
    exact param.packages_subset code.optionalStyle hparam

theorem importsMatch_classUnit {registry : Registry} {code : CodeSettings} {c : Interface.Class}
    {u : CodeUnit} (h : classUnit registry code c = .ok u) : ImportsMatch u.imports u.decls := by
  obtain ⟨methods, properties, seeds, hmethods, -, -, -, rfl⟩ := classUnit_eq_ok_iff.1 h
  constructor
  · intro p
    rw [Go.Decl.exists_mem_selections_iff, mem_classImports_iff]
    constructor
    · intro hp
      have hpackage := classImports_subset code methods seeds (mem_classImports_iff.2 hp)
      refine ⟨hpackage, ?_⟩
      rcases hp with hseed | ⟨m, hm, hmethod⟩
      · rw [← selections_constructorBody] at hseed
        exact ⟨_, func_mem_classDecls_iff.2 (Or.inl rfl), hseed⟩
      · exact ⟨_, func_mem_classDecls_iff.2 (Or.inr ⟨m, hm, rfl⟩),
          (m.mem_selections_stubBody_iff code hpackage).2 hmethod⟩
    · rintro ⟨hpackage, f, hf, hp⟩
      rcases func_mem_classDecls_iff.1 hf with rfl | ⟨m, hm, rfl⟩
      · left
        rwa [← selections_constructorBody]
      · exact Or.inr ⟨m, hm, (m.mem_selections_stubBody_iff code hpackage).1 hp⟩
  · intro d hd name hname
    obtain ⟨f, hf, hname⟩ := Go.Decl.exists_func_of_mem_binds hd hname
    rcases func_mem_classDecls_iff.1 hf with rfl | ⟨m, hm, rfl⟩
    · exact not_mem_binds_constructorFunc code c.name seeds hname
    · obtain ⟨declared, -, hdeclared⟩ := Outcome.exists_of_mem_right hmethods hm
      exact Method.not_mem_binds_stub hdeclared code hname

end Binding

/-! ## Files -/

namespace Compilation

open Binding

/-- Imports that match unit by unit match in the file of the units. -/
theorem importsMatch_fileOf {packageName : String} {source : Path} {units : List CodeUnit}
    (h : ∀ u ∈ units, ImportsMatch u.imports u.decls) :
    ImportsMatch (Output.fileOf packageName source units).imports
      (Output.fileOf packageName source units).decls := by
  constructor
  · intro p
    rw [Output.fileOf, NameSet.mem_ofList]
    constructor
    · intro hp
      obtain ⟨u, hu, hp⟩ := List.mem_flatMap.1 hp
      obtain ⟨hpackage, d, hd, hp⟩ := ((h u hu).mem_iff p).1 hp
      exact ⟨hpackage, d, List.mem_flatMap.2 ⟨u, hu, hd⟩, hp⟩
    · rintro ⟨hpackage, d, hd, hp⟩
      obtain ⟨u, hu, hd⟩ := List.mem_flatMap.1 hd
      exact List.mem_flatMap.2 ⟨u, hu, ((h u hu).mem_iff p).2 ⟨hpackage, d, hd, hp⟩⟩
  · intro d hd
    obtain ⟨u, hu, hd⟩ := List.mem_flatMap.1 hd
    exact (h u hu).free d hd

theorem Part.Made.importsMatch {registry : Registry} {s : Settings} {p : Part}
    (h : p.Made registry s.code) {file : Go.File} (hfile : file ∈ p.goFiles s) :
    file.imports.Pairwise (· < ·) ∧ ImportsMatch file.imports file.decls := by
  obtain ⟨htypes, hclasses⟩ := ModuleUnits.ofModule_eq_ok_iff.1 h.coded
  rcases List.mem_cons.1 hfile with rfl | hfile
  · refine ⟨NameSet.pairwise_ofList _, importsMatch_fileOf fun u hu => ?_⟩
    obtain ⟨c, -, hc⟩ := Outcome.exists_of_mem_right hclasses hu
    exact importsMatch_classUnit hc
  · split at hfile
    · exact absurd hfile List.not_mem_nil
    · rw [List.mem_singleton.1 hfile]
      refine ⟨NameSet.pairwise_ofList _, importsMatch_fileOf fun u hu => ?_⟩
      obtain ⟨t, -, ht⟩ := Outcome.exists_of_mem_right htypes hu
      exact importsMatch_typeUnit ht

/-- Every file names its package, and in a comment the source it was made from. -/
theorem Run.header_of_mem_goFiles {s : Settings} {sources : List Source} (run : Run s sources)
    {file : Go.File} (h : file ∈ run.goFiles) : file.package = s.packageName ∧
      ∃ source ∈ sources, file.header = [Output.header source.path] := by
  obtain ⟨p, hp, hfile⟩ := List.mem_flatMap.1 h
  have hsource : p.source ∈ sources := run.source_parts ▸ List.mem_map_of_mem hp
  rcases List.mem_cons.1 hfile with rfl | hfile
  · exact ⟨rfl, p.source, hsource, rfl⟩
  · split at hfile
    · exact absurd hfile List.not_mem_nil
    · rw [List.mem_singleton.1 hfile]
      exact ⟨rfl, p.source, hsource, rfl⟩

/-- **Imports are exact.** Every file imports, in order and once each, the packages from which its
    code selects something, and no variable in it is called like one of them. These are the packages
    that are read from the text of the file behind its package clause, and from the whole text if
    its first lines are not broken by a name with a line feed. -/
theorem imports_exactly_used_packages {s : Settings} {sources : List Source}
    {files : List OutputFile} (h : (compileSources s sources).result = .ok files) :
    ∃ run : Run s sources, run.files = files ∧
      files.map OutputFile.contents = run.goFiles.map Go.File.print ∧
      ∀ file ∈ run.goFiles,
        (∃ rest, file.print = file.opening ++ rest ∧ Go.importsOf rest.toList = file.imports) ∧
        (Go.Unbroken file.header → '\n' ∉ file.package.toList →
          Go.importsIn file.print = file.imports) ∧
        file.imports.Pairwise (· < ·) ∧
        (∀ p, p ∈ file.imports ↔
          p ∈ ["fmt", "reflect"] ∧ ∃ d ∈ file.decls, p ∈ d.selections) ∧
        ∀ d ∈ file.decls, ∀ name ∈ d.binds, name ∉ ["fmt", "reflect"] := by
  obtain ⟨run, rfl⟩ := result_compileSources_eq_ok_iff.1 h
  refine ⟨run, rfl, run.contents_files, fun file hfile => ?_⟩
  obtain ⟨p, hp, hfile⟩ := List.mem_flatMap.1 hfile
  obtain ⟨hsorted, hmatch⟩ := (run.made p hp).importsMatch hfile
  exact ⟨file.exists_importsOf_eq, Go.File.importsIn_print, hsorted, hmatch.mem_iff, hmatch.free⟩

theorem player_imports_exactly_used_packages :
    ∃ run : Run .default playerSources, ∀ file ∈ run.goFiles,
      Go.importsIn file.print = file.imports ∧ ∀ p, p ∈ Go.importsIn file.print ↔
        p ∈ ["fmt", "reflect"] ∧ ∃ d ∈ file.decls, p ∈ d.selections := by
  obtain ⟨files, h⟩ : ∃ files, (compileSources .default playerSources).result = .ok files :=
    Outcome.exists_eq_ok_of_isOk (by decide +kernel)
  obtain ⟨run, -, -, hfiles⟩ := imports_exactly_used_packages h
  refine ⟨run, fun file hfile => ?_⟩
  obtain ⟨-, hread, -, hmem, -⟩ := hfiles file hfile
  obtain ⟨hpackage, source, hsource, hheader⟩ := run.header_of_mem_goFiles hfile
  have hnames : ∀ source ∈ playerSources, '\n' ∉ (Output.header source.path).toList := by
    simp only [playerSources, List.forall_mem_cons, List.not_mem_nil, false_imp_iff, implies_true,
      and_true]
    decide +kernel
  have hsame : Go.importsIn file.print = file.imports := by
    refine hread ?_ (hpackage ▸ by decide +kernel)
    rw [hheader]
    exact fun line hline => List.mem_singleton.1 hline ▸ hnames source hsource
  exact ⟨hsame, hsame ▸ hmem⟩

end Compilation

end GoBindings
