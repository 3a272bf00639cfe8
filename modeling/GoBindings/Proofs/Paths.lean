import GoBindings.Output
import GoBindings.Proofs.CodeLines
import Mathlib.Data.List.DropRight

set_option autoImplicit false

/-! # Paths by their names

The names of a path are its pieces without those that stay. The parent of a path has all names but
the last, and a file in a directory has one more. So all that stands above a path has a front part
of its names.

Files of code are named after their sources. Such a name never holds a separator and is none of the
special pieces, so every file lies directly in the output directory. -/

namespace GoBindings

namespace Path

def names (p : Path) : List String := p.pieces.filter fun piece => !isStay piece

/-- An ordinary name: one piece that leads to an entry of a directory. -/
structure IsPlain (piece : String) : Prop where
  no_separator : '/' ∉ piece.toList
  no_stay : isStay piece = false
  no_parent : piece ≠ ".."

/-! ## Pieces of a text -/

theorem not_mem_of_mem_pieces {p : Path} {piece : String} (h : piece ∈ p.pieces) :
    '/' ∉ piece.toList := by
  obtain ⟨cs, hcs, rfl⟩ := List.mem_map.1 h
  rw [List.splitOn_eq_splitOnP] at hcs
  rw [String.toList_ofList]
  intro hmem
  exact absurd (Text.eq_false_of_mem_splitOnP hcs '/' hmem) (by decide)

theorem pieces_intercalate {front : List String} (hne : front ≠ [])
    (h : ∀ piece ∈ front, '/' ∉ piece.toList) : pieces ⟨"/".intercalate front⟩ = front := by
  have hslash : "/".toList = ['/'] := rfl
  have hfree : ∀ cs ∈ front.map String.toList, '/' ∉ cs := by
    intro cs hcs
    obtain ⟨piece, hpiece, rfl⟩ := List.mem_map.1 hcs
    exact h piece hpiece
  rw [pieces, String.toList_intercalate, hslash,
    List.splitOn_intercalate '/' hfree (by simpa using hne), List.map_map]
  simp

theorem pieces_append_slash (front back : String) :
    pieces ⟨front ++ "/" ++ back⟩ = pieces ⟨front⟩ ++ pieces ⟨back⟩ := by
  have htext : (front ++ "/" ++ back).toList = front.toList ++ '/' :: back.toList := by simp
  rw [pieces, htext, List.splitOn_append_cons_self, List.map_append]
  rfl

/-- A path is absolute if its first piece is empty and there is another one. -/
theorem isAbsolute_iff {p : Path} :
    p.isAbsolute = true ↔ ∃ rest, rest ≠ [] ∧ p.pieces = "" :: rest := by
  obtain ⟨text⟩ := p
  rw [isAbsolute, beq_iff_eq]
  show text.toList.head? = some '/' ↔ _
  unfold pieces
  generalize text.toList = cs
  cases cs with
  | nil => simp
  | cons c cs =>
    rw [List.head?_cons, List.splitOn_cons_eq_if_modifyHead]
    obtain ⟨piece, rest, hsplit⟩ := List.exists_cons_of_ne_nil (List.splitOn_ne_nil '/' cs)
    by_cases hc : c = '/'
    · simp [hc, hsplit]
    · simp [hc, hsplit]

/-! ## Parents -/

theorem filter_trimStays (pieces : List String) :
    ((trimStays pieces).filter fun piece => !isStay piece)
      = pieces.filter fun piece => !isStay piece := by
  have hsplit : pieces.rdropWhile isStay ++ pieces.rtakeWhile isStay = pieces :=
    List.rdropWhile_append_rtakeWhile
  have hstays : ((pieces.rtakeWhile isStay).filter fun piece => !isStay piece) = [] := by
    rw [List.filter_eq_nil_iff]
    intro piece hpiece
    simpa using List.mem_rtakeWhile_imp hpiece
  show ((pieces.rdropWhile isStay).filter _) = _
  conv_rhs => rw [← hsplit, List.filter_append, hstays, List.append_nil]

theorem trimStays_begins (pieces : List String) : trimStays pieces <+: pieces :=
  List.rdropWhile_prefix isStay pieces

/-- The last piece of what is left is a name. -/
theorem trimStays_eq_nil_or (pieces : List String) :
    trimStays pieces = [] ∨
      ∃ front last, trimStays pieces = front ++ [last] ∧ isStay last = false := by
  rcases List.eq_nil_or_concat (trimStays pieces) with hnil | ⟨front, last, hconcat⟩
  · exact Or.inl hnil
  · have hne : pieces.rdropWhile isStay ≠ [] := by
      show trimStays pieces ≠ []
      simp [hconcat]
    have hlast := List.rdropWhile_last_not isStay pieces hne
    have hsame : (pieces.rdropWhile isStay).getLast hne = last := by
      have hconcat' : pieces.rdropWhile isStay = front ++ [last] := by
        rw [← List.concat_eq_append]
        exact hconcat
      simp [hconcat']
    rw [hsame] at hlast
    exact Or.inr ⟨front, last, by rw [hconcat, List.concat_eq_append], by simpa using hlast⟩

theorem filter_dropLast_trimStays (pieces : List String) :
    ((trimStays pieces).dropLast.filter fun piece => !isStay piece)
      = (pieces.filter fun piece => !isStay piece).dropLast := by
  rw [← filter_trimStays pieces]
  rcases trimStays_eq_nil_or pieces with hnil | ⟨front, last, hconcat, hlast⟩
  · rw [hnil]
    rfl
  · rw [hconcat, List.filter_append, List.dropLast_concat]
    simp [hlast]

/-- A front part that ends with a name starts like the whole path. -/
theorem isAbsolute_of_begins {p q : Path} {front : List String} {last : String}
    (hpieces : q.pieces = front ++ [last]) (hlast : isStay last = false)
    (hbegins : q.pieces <+: p.pieces) : q.isAbsolute = p.isAbsolute := by
  rw [Bool.eq_iff_iff, isAbsolute_iff, isAbsolute_iff]
  obtain ⟨back, hback⟩ := hbegins
  rw [← hback, hpieces]
  cases front with
  | nil =>
    have hne : last ≠ "" := by
      rintro rfl
      exact absurd hlast (by decide)
    simp [hne]
  | cons piece front => simp

/-- **The parent of a path has all its names but the last**, and starts from the same place. -/
theorem names_parent {p q : Path} (h : p.parent = some q) (hq : q.text ≠ "") :
    q.isAbsolute = p.isAbsolute ∧ q.names = p.names.dropLast := by
  have hnames : ((trimStays (trimStays p.pieces).dropLast).filter fun piece => !isStay piece)
      = p.names.dropLast := by
    rw [filter_trimStays, filter_dropLast_trimStays]
    rfl
  simp only [parent] at h
  split at h
  · split at h
    · obtain rfl := Option.some.inj h
      exact absurd rfl hq
    · exact absurd h (by simp)
  · split at h
    · next hfront =>
      rw [hfront, List.filter_nil] at hnames
      split at h
      · next habsolute =>
        obtain rfl := Option.some.inj h
        exact ⟨habsolute.symm, hnames⟩
      · next hrelative =>
        split at h
        · obtain rfl := Option.some.inj h
          exact ⟨(Bool.eq_false_iff.2 hrelative).symm, hnames⟩
        · obtain rfl := Option.some.inj h
          exact absurd rfl hq
    · next hfront =>
      obtain rfl := Option.some.inj h
      have hbegins : trimStays (trimStays p.pieces).dropLast <+: p.pieces := by
        have hdrop : (trimStays p.pieces).dropLast <+: trimStays p.pieces := List.dropLast_prefix _
        exact (trimStays_begins _).trans (hdrop.trans (trimStays_begins _))
      have hpieces := pieces_intercalate hfront fun piece hpiece =>
        not_mem_of_mem_pieces (hbegins.subset hpiece)
      rcases trimStays_eq_nil_or (trimStays p.pieces).dropLast with hnil | ⟨front, last, hlast⟩
      · exact absurd hnil hfront
      · refine ⟨isAbsolute_of_begins (hpieces.trans hlast.1) hlast.2 ?_, ?_⟩
        · rw [hpieces]
          exact hbegins
        · rw [names, hpieces, hnames]

theorem eq_of_mem_ancestorsUpTo_empty {q : Path} {count : Nat}
    (h : q ∈ ancestorsUpTo ⟨""⟩ count) : q = ⟨""⟩ := by
  have hparent : parent ⟨""⟩ = none := by decide
  cases count with
  | zero => exact absurd h List.not_mem_nil
  | succ count =>
    unfold ancestorsUpTo at h
    rw [hparent] at h
    exact List.mem_singleton.1 h

/-- Whatever stands above a path has a front part of its names. -/
theorem names_begin_of_mem_ancestorsUpTo {p q : Path} {count : Nat}
    (h : q ∈ p.ancestorsUpTo count) (hq : q.text ≠ "") :
    q.isAbsolute = p.isAbsolute ∧ q.names <+: p.names := by
  induction count generalizing p with
  | zero => exact absurd h List.not_mem_nil
  | succ count ih =>
    unfold ancestorsUpTo at h
    cases hparent : p.parent with
    | none =>
      rw [hparent, List.mem_singleton] at h
      rw [h]
      exact ⟨rfl, List.prefix_refl _⟩
    | some parent =>
      rw [hparent, List.mem_cons] at h
      rcases h with rfl | h
      · exact ⟨rfl, List.prefix_refl _⟩
      · obtain ⟨habsolute, hnames⟩ := ih h
        have hempty : parent.text ≠ "" := by
          obtain ⟨text⟩ := parent
          rintro rfl
          exact hq (congrArg text (eq_of_mem_ancestorsUpTo_empty h))
        obtain ⟨habsolute', hnames'⟩ := names_parent hparent hempty
        rw [hnames'] at hnames
        exact ⟨habsolute.trans habsolute', hnames.trans <| List.dropLast_prefix _⟩

/-! ## Files in a directory -/

theorem isAbsolute_of_isPlain {name : String} (h : IsPlain name) : isAbsolute ⟨name⟩ = false := by
  rw [← Bool.not_eq_true, isAbsolute, beq_iff_eq]
  intro hhead
  exact h.no_separator (List.mem_of_mem_head? hhead)

theorem pieces_of_isPlain {name : String} (h : IsPlain name) : pieces ⟨name⟩ = [name] := by
  rw [pieces, List.splitOn_eq_singleton h.no_separator]
  simp

/-- One separator stands before the name, unless there is no directory to name. -/
theorem join_eq_of_isPlain (dir : Path) {name : String} (h : IsPlain name) :
    (dir.text = "" ∧ dir.join ⟨name⟩ = ⟨name⟩) ∨
      ∃ front, (dir.text = front ∧ front ≠ "" ∨ dir.text = front ++ "/") ∧
        dir.join ⟨name⟩ = ⟨front ++ "/" ++ name⟩ := by
  obtain ⟨text⟩ := dir
  unfold join
  rw [isAbsolute_of_isPlain h, if_neg Bool.false_ne_true]
  cases hlast : text.toList.getLast? with
  | none =>
    have hempty : text = "" := by simpa using hlast
    exact Or.inl ⟨hempty, by simp [hempty]⟩
  | some c =>
    obtain ⟨front, hfront⟩ := List.getLast?_eq_some_iff.1 hlast
    by_cases hc : c = '/'
    · have htext : text = String.ofList front ++ "/" := by
        rw [← String.toList_inj, hfront, hc]
        simp
      exact Or.inr ⟨String.ofList front, Or.inr htext, by simp [hc, htext]⟩
    · have hne : text ≠ "" := by
        rintro rfl
        simp at hlast
      refine Or.inr ⟨text, Or.inl ⟨rfl, hne⟩, ?_⟩
      split
      · next heq => simp at heq
      · next heq => exact absurd (Option.some.inj heq) hc
      · rfl

theorem names_append_slash (front back : String) :
    names ⟨front ++ "/" ++ back⟩ = names ⟨front⟩ ++ names ⟨back⟩ := by
  rw [names, pieces_append_slash, List.filter_append]
  rfl

/-- **A file in a directory has one name more**, and starts from the same place. -/
theorem names_join (dir : Path) {name : String} (h : IsPlain name) :
    (dir.join ⟨name⟩).isAbsolute = dir.isAbsolute ∧
      (dir.join ⟨name⟩).names = dir.names ++ [name] := by
  obtain ⟨text⟩ := dir
  have hname : names ⟨name⟩ = [name] := by
    rw [names, pieces_of_isPlain h]
    simp [h.no_stay]
  have hempty : names ⟨""⟩ = [] := rfl
  rcases join_eq_of_isPlain ⟨text⟩ h with ⟨rfl, hjoin⟩ | ⟨front, htext, hjoin⟩
  · rw [hjoin, isAbsolute_of_isPlain h, hname, hempty]
    exact ⟨rfl, rfl⟩
  · rw [hjoin, names_append_slash, hname]
    rcases htext with ⟨rfl, hne⟩ | rfl
    · refine ⟨?_, rfl⟩
      obtain ⟨c, cs, hcs⟩ := List.exists_cons_of_ne_nil (mt String.toList_eq_nil_iff.1 hne)
      simp [isAbsolute, hcs]
    · have hslash := names_append_slash front ""
      rw [String.append_empty, hempty, List.append_nil] at hslash
      refine ⟨?_, by rw [hslash]⟩
      simp [isAbsolute, List.head?_append]

/-! ## Last names -/

theorem mem_pieces_of_fileName {p : Path} {name : String} (h : p.fileName = some name) :
    name ∈ p.pieces := by
  have hnormal : Component.normal name ∈ p.components := by
    unfold fileName at h
    split at h
    · next last hlast =>
      cases h
      exact List.mem_of_getLast? hlast
    · exact absurd h (by simp)
  have hnamed : Component.normal name ∈ p.names.map componentOf := by
    unfold components at hnormal
    split at hnormal
    · simpa [names] using hnormal
    · split at hnormal
      · simpa [names] using hnormal
      · exact hnormal
  obtain ⟨piece, hpiece, heq⟩ := List.mem_map.1 hnamed
  unfold componentOf at heq
  split at heq
  · exact absurd heq (by simp)
  · cases heq
    exact (List.mem_filter.1 hpiece).1

end Path

/-! ## Names of files -/

namespace Text

/-- A table none of whose runs and expansions reaches down to a bound keeps everything above it. -/
theorem lt_of_mem_image {runs : List CaseRun} {expansions : List (Nat × List Nat)} {bound n m : Nat}
    (hruns : ∀ r ∈ runs, bound < r.first + r.shift)
    (hexpansions : ∀ e ∈ expansions, ∀ m ∈ e.2, bound < m) (hn : bound < n)
    (h : m ∈ CaseRun.image runs expansions n) : bound < m := by
  unfold CaseRun.image at h
  split at h
  · next e he => exact hexpansions e (List.mem_of_find?_eq_some he) m h
  · split at h
    · next r hr =>
      have hshift := hruns r (List.mem_of_find?_eq_some hr)
      have hin := List.find?_some hr
      simp only [Bool.and_eq_true, decide_eq_true_eq] at hin
      rw [List.mem_singleton] at h
      omega
    · rwa [List.mem_singleton.1 h]

/-- No character but the separator itself has a separator in its lower case. -/
theorem separator_not_mem_lowerChar {c : Char} (h : c ≠ '/') : '/' ∉ lowerChar c := by
  unfold lowerChar
  by_cases hc : c.toNat < 0x80
  · have hall : ∀ n < 0x80, Char.ofNat n ≠ '/' → '/' ≠ (Char.ofNat n).toLower := by decide
    rw [if_pos hc, List.mem_singleton]
    have hself : Char.ofNat c.toNat = c := Char.ofNat_toNat c
    rw [← hself] at h ⊢
    exact hall c.toNat hc h
  · rw [if_neg hc, List.mem_map]
    rintro ⟨m, hm, heq⟩
    have hbound : 0x2F < m := by
      refine lt_of_mem_image ?_ ?_ (by omega) hm
      · decide +kernel
      · decide
    have hnat : (Char.ofNat m).toNat = 0x2F := congrArg Char.toNat heq
    by_cases hvalid : m.isValidChar
    · have hself : Char.ofNat m = Char.ofNatAux m hvalid := dif_pos hvalid
      rw [hself] at hnat
      have hm : m = 0x2F := hnat
      omega
    · have hnull : Char.ofNat m = '\x00' := dif_neg hvalid
      rw [hnull] at hnat
      exact absurd hnat (by decide)

theorem separator_not_mem_lower {cs : List Char} (h : '/' ∉ cs) : '/' ∉ lower cs := by
  unfold lower
  generalize [] = before
  induction cs generalizing before with
  | nil => exact List.not_mem_nil
  | cons c cs ih =>
    rw [List.mem_cons, not_or] at h
    simp only [lowerAfter, List.mem_append, not_or]
    refine ⟨?_, ih h.2 (c :: before)⟩
    split
    · split
      · decide
      · decide
    · exact separator_not_mem_lowerChar (Ne.symm h.1)

end Text

namespace Output

/-- Files are named after sources, and no source has a separator in its name. -/
theorem separator_not_mem_stem (source : Path) (suffix : String) :
    '/' ∉ (stem source suffix).toList := by
  have hname : '/' ∉ (source.fileName.getD "").toList := by
    cases h : source.fileName with
    | none => decide
    | some name => exact Path.not_mem_of_mem_pieces (Path.mem_pieces_of_fileName h)
  have hfront : ∀ c ∈ (Text.beforeEnding? suffix.toList (source.fileName.getD "").toList).getD
      (source.fileName.getD "").toList, c ≠ '/' := by
    intro c hc hslash
    refine hname ?_
    rw [hslash, Text.beforeEnding?] at hc
    split at hc
    · exact List.mem_of_mem_take hc
    · exact hc
  unfold stem
  rw [String.toList_ofList]
  refine Text.separator_not_mem_lower ?_
  rw [List.mem_map]
  rintro ⟨c, hc, heq⟩
  split at heq
  · exact absurd heq (by decide)
  · exact hfront c hc heq

theorem isPlain_append_go {name : String} (h : '/' ∉ name.toList) :
    Path.IsPlain (name ++ ".go") := by
  have hlength : 3 ≤ (name ++ ".go").length := by
    rw [String.length_append]
    exact Nat.le_add_left 3 name.length
  have hshort : ∀ piece : String, piece.length < 3 → name ++ ".go" ≠ piece := by
    rintro piece hpiece rfl
    omega
  constructor
  · rw [String.toList_append, List.mem_append, not_or]
    exact ⟨h, by decide⟩
  · rw [Path.isStay, Bool.or_eq_false_iff, beq_eq_false_iff_ne, beq_eq_false_iff_ne]
    exact ⟨hshort "" (by decide), hshort "." (by decide)⟩
  · exact hshort ".." (by decide)

/-- The names of the files of a module. That for the data types is longer. -/
theorem exists_names_ofModule {s : Settings} (hsuffix : '/' ∉ s.code.typesSuffix.toList)
    (source : Path) (units : Binding.ModuleUnits) :
    ∃ base longer : String, '/' ∉ base.toList ∧ '/' ∉ longer.toList ∧ base.length < longer.length ∧
      ofModule s source units = outputFile s source base units.classes ::
        if units.types.isEmpty then [] else [outputFile s source longer units.types] := by
  have hstem := separator_not_mem_stem source s.code.schemaSuffix
  refine ⟨stem source s.code.schemaSuffix,
    stem source s.code.schemaSuffix ++ "_" ++ s.code.typesSuffix, hstem, ?_, ?_, rfl⟩
  · simp only [String.toList_append, List.mem_append, not_or]
    exact ⟨⟨hstem, by decide⟩, hsuffix⟩
  · have hunderscore : "_".length = 1 := rfl
    rw [String.length_append, String.length_append, hunderscore]
    omega

/-- **Every file of a module lies directly in the output directory**, and its name ends with
    `.go`. -/
theorem exists_isPlain_of_mem_ofModule {s : Settings} {source : Path} {units : Binding.ModuleUnits}
    {file : OutputFile} (hsuffix : '/' ∉ s.code.typesSuffix.toList)
    (h : file ∈ ofModule s source units) :
    ∃ base, Path.IsPlain (base ++ ".go") ∧ file.path = s.outputDir.join ⟨base ++ ".go"⟩ := by
  obtain ⟨base, longer, hbase, hlonger, -, hfiles⟩ := exists_names_ofModule hsuffix source units
  rw [hfiles, List.mem_cons] at h
  rcases h with rfl | h
  · exact ⟨base, isPlain_append_go hbase, rfl⟩
  · split at h
    · exact absurd h List.not_mem_nil
    · rw [List.mem_singleton.1 h]
      exact ⟨longer, isPlain_append_go hlonger, rfl⟩

end Output

end GoBindings
