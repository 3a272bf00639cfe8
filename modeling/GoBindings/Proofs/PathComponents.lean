import GoBindings.Proofs.Paths

set_option autoImplicit false

/-! # Components of paths

The components of a path say where it starts, and then its names (`components_eq`); so they give
these back, and two paths that agree in both are the same. A file in a directory has the components
of the directory and one more, and its parent is the directory again (`components_join`,
`exists_parent_join`), however the directory was written. The order of paths is a total order on
their components. -/

namespace GoBindings

namespace Path

/-- A path that starts with `.` starts from where one is, explicitly. -/
def startsHere (p : Path) : Bool := p.pieces.head? == some "."

theorem components_eq (p : Path) :
    p.components = (if p.isAbsolute then [.root] else if p.startsHere then [.current] else [])
      ++ p.names.map componentOf := by
  unfold components names startsHere
  split
  · rfl
  · split
    · rfl
    · rfl

theorem components_congr {p q : Path} (habsolute : p.isAbsolute = q.isAbsolute)
    (hhere : p.startsHere = q.startsHere) (hnames : p.names = q.names) :
    p.components = q.components := by
  rw [components_eq, components_eq, habsolute, hhere, hnames]

theorem pieces_ne_nil (p : Path) : p.pieces ≠ [] := by
  unfold pieces
  simp [List.splitOn_ne_nil]

theorem startsHere_of_begins {p q : Path} (h : q.pieces <+: p.pieces) :
    q.startsHere = p.startsHere := by
  unfold startsHere
  obtain ⟨rest, hrest⟩ := h
  rw [← hrest, List.head?_append_of_ne_nil _ q.pieces_ne_nil]

/-! ## Files in a directory -/

section Join

variable {name : String} (h : IsPlain name)
include h

theorem componentOf_of_isPlain : componentOf name = .normal name := by
  simp [componentOf, h.no_parent]

/-- The pieces of a directory, but for an empty last one, and the name behind them. -/
theorem pieces_join (dir : Path) :
    (dir.text = "" ∧ (dir.join ⟨name⟩).pieces = [name]) ∨
      ∃ front : Path, (dir.join ⟨name⟩).pieces = front.pieces ++ [name] ∧
        (dir.pieces = front.pieces ∨ dir.pieces = front.pieces ++ [""]) := by
  obtain ⟨text⟩ := dir
  rcases join_eq_of_isPlain ⟨text⟩ h with ⟨hempty, hjoin⟩ | ⟨front, htext, hjoin⟩
  · exact Or.inl ⟨hempty, by rw [hjoin, pieces_of_isPlain h]⟩
  · refine Or.inr ⟨⟨front⟩, by rw [hjoin, pieces_append_slash, pieces_of_isPlain h], ?_⟩
    rcases htext with ⟨rfl, -⟩ | rfl
    · exact Or.inl rfl
    · have hslash := pieces_append_slash front ""
      rw [String.append_empty] at hslash
      exact Or.inr hslash

theorem startsHere_join (dir : Path) : (dir.join ⟨name⟩).startsHere = dir.startsHere := by
  rcases pieces_join h dir with ⟨hempty, hpieces⟩ | ⟨front, hpieces, hdir⟩
  · have hname : name ≠ "." := by
      rintro rfl
      exact absurd h.no_stay (by decide)
    obtain ⟨text⟩ := dir
    obtain rfl : text = "" := hempty
    have hempty' : startsHere ⟨""⟩ = false := by decide
    rw [hempty', startsHere, hpieces]
    simp [hname]
  · have hfront : front.startsHere = (dir.join ⟨name⟩).startsHere :=
      startsHere_of_begins ⟨[name], hpieces.symm⟩
    rw [← hfront]
    rcases hdir with hdir | hdir
    · exact startsHere_of_begins ⟨[], by rw [hdir, List.append_nil]⟩
    · exact startsHere_of_begins ⟨[""], hdir.symm⟩

/-- **A file in a directory has one component more.** -/
theorem components_join (dir : Path) :
    (dir.join ⟨name⟩).components = dir.components ++ [.normal name] := by
  obtain ⟨habsolute, hnames⟩ := names_join dir h
  rw [components_eq, components_eq dir, habsolute, startsHere_join h, hnames, List.map_append,
    List.map_singleton, componentOf_of_isPlain h, List.append_assoc]

theorem fileName_join (dir : Path) : (dir.join ⟨name⟩).fileName = some name := by
  rw [fileName, components_join h, List.getLast?_concat]

end Join

/-- The parent of a path that ends with a name. -/
theorem parent_of_pieces {p : Path} {front : List String} {last : String}
    (hpieces : p.pieces = front ++ [last]) (hlast : isStay last = false) :
    p.parent = some (if trimStays front = [] then
      if p.isAbsolute then ⟨"/"⟩ else if p.startsHere then ⟨"."⟩ else ⟨""⟩
      else ⟨"/".intercalate (trimStays front)⟩) := by
  have htrim : trimStays (front ++ [last]) = front ++ [last] := by
    simp [trimStays, hlast]
  simp only [parent, startsHere, hpieces, htrim, List.dropLast_concat]
  split
  · next hnil => simp at hnil
  · split
    · next hnil =>
      rw [if_pos hnil]
      split
      · rfl
      · split
        · rfl
        · rfl
    · next hne => rw [if_neg hne]

/-- A path without names is given by its start. -/
theorem components_start {p : Path} (hnames : p.names = []) :
    components (if p.isAbsolute then ⟨"/"⟩ else if p.startsHere then ⟨"."⟩ else ⟨""⟩)
      = p.components := by
  rw [components_eq p, hnames]
  generalize p.isAbsolute = absolute
  generalize p.startsHere = here
  revert absolute here
  decide

/-- **The parent of a file in a directory is the directory.** -/
theorem exists_parent_join {name : String} (h : IsPlain name) (dir : Path) :
    ∃ parent, (dir.join ⟨name⟩).parent = some parent ∧ parent.components = dir.components := by
  obtain ⟨habsolute, -⟩ := names_join dir h
  have hhere := startsHere_join h dir
  rcases pieces_join h dir with ⟨hempty, hpieces⟩ | ⟨front, hpieces, hdir⟩
  · obtain ⟨text⟩ := dir
    obtain rfl : text = "" := hempty
    have hparent := parent_of_pieces (hpieces.trans (List.nil_append [name]).symm) h.no_stay
    have hnil : trimStays [] = [] := rfl
    rw [habsolute, hhere, if_pos hnil] at hparent
    exact ⟨_, hparent, components_start rfl⟩
  · have hparent := parent_of_pieces hpieces h.no_stay
    have hnames : dir.names = (trimStays front.pieces).filter fun piece => !isStay piece := by
      rw [filter_trimStays, names]
      rcases hdir with hdir | hdir
      · rw [hdir]
      · rw [hdir, List.filter_append]
        simp [isStay]
    rcases trimStays_eq_nil_or front.pieces with hnil | ⟨firsts, last, hconcat, hlast⟩
    · rw [habsolute, hhere, if_pos hnil] at hparent
      rw [hnil, List.filter_nil] at hnames
      exact ⟨_, hparent, components_start hnames⟩
    · have hne : trimStays front.pieces ≠ [] := by simp [hconcat]
      rw [if_neg hne] at hparent
      have hbegins : trimStays front.pieces <+: (dir.join ⟨name⟩).pieces := by
        rw [hpieces]
        exact (trimStays_begins _).trans (List.prefix_append _ _)
      have htrim : pieces ⟨"/".intercalate (trimStays front.pieces)⟩ = trimStays front.pieces :=
        pieces_intercalate hne fun piece hpiece => not_mem_of_mem_pieces (hbegins.subset hpiece)
      have hfront : pieces ⟨"/".intercalate (trimStays front.pieces)⟩
          <+: (dir.join ⟨name⟩).pieces := by rwa [htrim]
      refine ⟨_, hparent, components_congr ?_ ?_ ?_⟩
      · rw [← habsolute]
        exact isAbsolute_of_begins (htrim.trans hconcat) hlast hfront
      · rw [← hhere]
        exact startsHere_of_begins hfront
      · rw [hnames, names, htrim]

/-! ## What components say -/

namespace Component

/-- The piece of a path that a component was made from. -/
def piece? : Component → Option String
  | root | current => none
  | parent => some ".."
  | normal name => some name

end Component

theorem piece?_componentOf (piece : String) : (componentOf piece).piece? = some piece := by
  unfold componentOf
  split
  · next h => rw [eq_of_beq h, Component.piece?]
  · rfl

theorem names_eq_filterMap (p : Path) : p.names = p.components.filterMap Component.piece? := by
  have hstart : (if p.isAbsolute then [.root] else if p.startsHere then [.current] else []).filterMap
      Component.piece? = [] := by
    generalize p.isAbsolute = absolute
    generalize p.startsHere = here
    revert absolute here
    decide
  have hnames : Component.piece? ∘ componentOf = some := funext piece?_componentOf
  rw [components_eq, List.filterMap_append, hstart, List.filterMap_map, hnames,
    List.filterMap_some, List.nil_append]

theorem isAbsolute_iff_root_mem (p : Path) : p.isAbsolute = true ↔ .root ∈ p.components := by
  have hnames : Component.root ∉ p.names.map componentOf := by
    intro hmem
    obtain ⟨piece, -, hroot⟩ := List.mem_map.1 hmem
    have hpiece := piece?_componentOf piece
    rw [hroot] at hpiece
    exact absurd hpiece (by simp [Component.piece?])
  rw [components_eq, List.mem_append, or_iff_left hnames]
  generalize p.isAbsolute = absolute
  generalize p.startsHere = here
  revert absolute here
  decide

theorem isAbsolute_congr {p q : Path} (h : p.components = q.components) :
    p.isAbsolute = q.isAbsolute := by
  rw [Bool.eq_iff_iff, isAbsolute_iff_root_mem, isAbsolute_iff_root_mem, h]

/-! ## Order -/

namespace Component

theorem le_iff (a b : Component) :
    a.le b = true ↔ a.rank < b.rank ∨ (a.rank = b.rank ∧ a.name ≤ b.name) := by
  simp [le]

theorem eq_of_rank_of_name {a b : Component} (hrank : a.rank = b.rank) (hname : a.name = b.name) :
    a = b := by
  cases a <;> cases b <;> simp_all [rank, name]

theorem le_total (a b : Component) : a.le b = true ∨ b.le a = true := by
  rw [le_iff, le_iff]
  rcases Nat.lt_trichotomy a.rank b.rank with hlt | heq | hgt
  · exact Or.inl (Or.inl hlt)
  · rcases String.le_total a.name b.name with hle | hle
    · exact Or.inl (Or.inr ⟨heq, hle⟩)
    · exact Or.inr (Or.inr ⟨heq.symm, hle⟩)
  · exact Or.inr (Or.inl hgt)

theorem le_trans {a b c : Component} (hab : a.le b = true) (hbc : b.le c = true) :
    a.le c = true := by
  rw [le_iff] at hab hbc ⊢
  rcases hab with hab | ⟨hab, hnames⟩
  · rcases hbc with hbc | ⟨hbc, -⟩
    · exact Or.inl (by omega)
    · exact Or.inl (by omega)
  · rcases hbc with hbc | ⟨hbc, hnames'⟩
    · exact Or.inl (by omega)
    · exact Or.inr ⟨hab.trans hbc, String.le_trans hnames hnames'⟩

theorem le_antisymm {a b : Component} (hab : a.le b = true) (hba : b.le a = true) : a = b := by
  rw [le_iff] at hab hba
  rcases hab with hab | ⟨hab, hnames⟩
  · omega
  · rcases hba with hba | ⟨-, hnames'⟩
    · omega
    · exact eq_of_rank_of_name hab (String.le_antisymm hnames hnames')

end Component

theorem leComponents_total (as bs : List Component) :
    leComponents as bs = true ∨ leComponents bs as = true := by
  induction as generalizing bs with
  | nil => exact Or.inl rfl
  | cons a as ih =>
    cases bs with
    | nil => exact Or.inr rfl
    | cons b bs =>
      by_cases h : a = b
      · simpa [leComponents, h] using ih bs
      · simpa [leComponents, h, Ne.symm h] using Component.le_total a b

theorem leComponents_trans {as bs cs : List Component} (hab : leComponents as bs = true)
    (hbc : leComponents bs cs = true) : leComponents as cs = true := by
  induction as generalizing bs cs with
  | nil => rfl
  | cons a as ih =>
    cases bs with
    | nil => exact absurd hab (by simp [leComponents])
    | cons b bs =>
      cases cs with
      | nil => exact absurd hbc (by simp [leComponents])
      | cons c cs =>
        simp only [leComponents] at hab hbc ⊢
        by_cases hac : a = c
        · subst hac
          rw [if_pos rfl]
          by_cases h : a = b
          · subst h
            rw [if_pos rfl] at hab hbc
            exact ih hab hbc
          · -- each of two different components would be below the other
            rw [if_neg h] at hab
            rw [if_neg (Ne.symm h)] at hbc
            exact absurd (Component.le_antisymm hab hbc) h
        · rw [if_neg hac]
          by_cases h : a = b
          · subst h
            rwa [if_neg hac] at hbc
          · rw [if_neg h] at hab
            by_cases h' : b = c
            · subst h'
              exact hab
            · rw [if_neg h'] at hbc
              exact Component.le_trans hab hbc

theorem leComponents_antisymm {as bs : List Component} (hab : leComponents as bs = true)
    (hba : leComponents bs as = true) : as = bs := by
  induction as generalizing bs with
  | nil =>
    cases bs with
    | nil => rfl
    | cons b bs => exact absurd hba (by simp [leComponents])
  | cons a as ih =>
    cases bs with
    | nil => exact absurd hab (by simp [leComponents])
    | cons b bs =>
      simp only [leComponents] at hab hba
      by_cases h : a = b
      · subst h
        rw [if_pos rfl] at hab hba
        rw [ih hab hba]
      · rw [if_neg h] at hab
        rw [if_neg (Ne.symm h)] at hba
        exact absurd (Component.le_antisymm hab hba) h

end Path

end GoBindings
