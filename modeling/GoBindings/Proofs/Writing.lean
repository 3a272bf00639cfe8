import GoBindings.CommandLine
import GoBindings.Proofs.Failures
import GoBindings.Proofs.Paths
import GoBindings.Proofs.Run

set_option autoImplicit false

/-! # What writing leaves behind

`Frame` says what a step may have changed in a file tree: files at some locations, and new
directories at some others, where nothing was before. Making directories changes no file; writing a
file changes one. A list of files in different places is written up to the first that cannot be
written, and whatever was written stays: later steps neither touch it nor take away a directory on
the way to it. -/

namespace GoBindings

namespace FileTree

/-! ## Locations -/

/-- The location one name further on. -/
def step (here : Location) (name : String) : Location :=
  if name == ".." then here.dropLast else here ++ [name]

def follow (here : Location) (names : List String) : Location := names.foldl step here

/-- Where a path starts. -/
def start (t : FileTree) (p : Path) : Location := if p.isAbsolute then [] else t.workingDirectory

theorem locate_eq_follow (t : FileTree) (p : Path) :
    t.locate p = follow (t.start p) p.names := by
  unfold locate follow Path.names
  show p.pieces.foldl _ (t.start p) = _
  generalize t.start p = here
  induction p.pieces generalizing here with
  | nil => rfl
  | cons piece rest ih =>
    rw [List.foldl_cons, ih, List.filter_cons]
    cases hstay : Path.isStay piece with
    | true => rfl
    | false => rfl

theorem get?_insert {location : Location} (hroot : location ≠ []) (t : FileTree) (node : Node)
    (l : Location) :
    (t.insert location node).get? l = if l = location then some node else t.get? l := by
  unfold get? insert erase
  by_cases hl : l = location
  · simp [hl, hroot]
  · have hne : (location == l) = false := by simpa using Ne.symm hl
    -- the entries that go are not at `l`, so they were no find before
    have hrest : (t.entries.filter fun e => e.1 != location).find? (fun e => e.1 == l)
        = t.entries.find? fun e => e.1 == l := by
      rw [List.find?_filter]
      congr 1
      funext e
      by_cases he : e.1 = l
      · simp [he, hl]
      · simp [he]
    rw [if_neg hl, List.find?_cons, hne, hrest]

/-! ## What a path leads to -/

/-- A piece of a path that names an entry of a directory. -/
structure IsEntry (piece : String) : Prop where
  not_stay : Path.isStay piece = false
  not_parent : (piece == "..") = false
  not_long : ¬ piece.utf8ByteSize > maxName

/-- From a location the pieces lead to a target: through directories, and at the end perhaps to a
    file or to a place where nothing is. -/
inductive Leads (t : FileTree) : Location → List String → Target → Prop
  | here {l : Location} : Leads t l [] (.directory l)
  | stay {l : Location} {piece : String} {rest : List String} {target : Target}
    (hstay : Path.isStay piece = true) (h : Leads t l rest target) :
    Leads t l (piece :: rest) target
  | parent {l : Location} {rest : List String} {target : Target}
    (h : Leads t l.dropLast rest target) : Leads t l (".." :: rest) target
  | enter {l : Location} {piece : String} {rest : List String} {target : Target}
    (hentry : IsEntry piece) (hthere : t.get? (l ++ [piece]) = some .directory)
    (h : Leads t (l ++ [piece]) rest target) : Leads t l (piece :: rest) target
  | file {l : Location} {piece : String} {contents : ByteArray} (hentry : IsEntry piece)
    (hthere : t.get? (l ++ [piece]) = some (.file contents)) :
    Leads t l [piece] (.file (l ++ [piece]) contents)
  | nothing {l : Location} {piece : String} (hentry : IsEntry piece)
    (hthere : t.get? (l ++ [piece]) = none) : Leads t l [piece] (.nothing (l ++ [piece]))

theorem leads_of_walk {t : FileTree} {here : Location} {pieces : List String} {target : Target}
    (h : t.walk here pieces = .ok target) : t.Leads here pieces target := by
  induction pieces generalizing here with
  | nil =>
    cases h
    exact .here
  | cons piece rest ih =>
    simp only [walk] at h
    split at h
    · next hstay => exact .stay hstay (ih h)
    · next hstay =>
      split at h
      · next hparent =>
        obtain rfl : piece = ".." := eq_of_beq hparent
        exact .parent (ih h)
      · next hparent =>
        split at h
        · exact absurd h (by simp)
        · next hlong =>
          have hentry : IsEntry piece := ⟨by simpa using hstay, by simpa using hparent, hlong⟩
          split at h
          · next hthere => exact .enter hentry hthere (ih h)
          · next contents hthere =>
            split at h
            · next hend =>
              cases h
              obtain rfl := List.isEmpty_iff.1 hend
              exact .file hentry hthere
            · exact absurd h (by simp)
          · next hthere =>
            split at h
            · next hend =>
              cases h
              obtain rfl := List.isEmpty_iff.1 hend
              exact .nothing hentry hthere
            · exact absurd h (by simp)

theorem walk_of_leads {t : FileTree} {here : Location} {pieces : List String} {target : Target}
    (h : t.Leads here pieces target) : t.walk here pieces = .ok target := by
  induction h with
  | here => rfl
  | stay hstay _ ih => rw [walk, if_pos hstay, ih]
  | parent _ ih => exact ih
  | enter hentry hthere _ ih =>
    simp [walk, hentry.not_stay, hentry.not_parent, hentry.not_long, hthere, ih]
  | file hentry hthere =>
    simp [walk, hentry.not_stay, hentry.not_parent, hentry.not_long, hthere]
  | nothing hentry hthere =>
    simp [walk, hentry.not_stay, hentry.not_parent, hentry.not_long, hthere]

/-- The location that pieces lead to from another one. -/
def reach (here : Location) (pieces : List String) : Location :=
  follow here (pieces.filter fun piece => !Path.isStay piece)

theorem reach_stay {here : Location} {piece : String} {rest : List String}
    (h : Path.isStay piece = true) : reach here (piece :: rest) = reach here rest := by
  simp [reach, h]

theorem reach_parent (here : Location) (rest : List String) :
    reach here (".." :: rest) = reach here.dropLast rest :=
  rfl

theorem reach_entry {here : Location} {piece : String} {rest : List String} (h : IsEntry piece) :
    reach here (piece :: rest) = reach (here ++ [piece]) rest := by
  simp [reach, h.not_stay, follow, step, h.not_parent]

/-- The target is what stands at a location. -/
inductive Stands (t : FileTree) (l : Location) : Target → Prop
  | directory : Stands t l (.directory l)
  | file {contents : ByteArray} (h : t.get? l = some (.file contents)) :
    Stands t l (.file l contents)
  | nothing (h : t.get? l = none) : Stands t l (.nothing l)

theorem Leads.stands {t : FileTree} {here : Location} {pieces : List String} {target : Target}
    (h : t.Leads here pieces target) : t.Stands (reach here pieces) target := by
  induction h with
  | here => exact .directory
  | stay hstay _ ih => rwa [reach_stay hstay]
  | parent _ ih => exact ih
  | enter hentry _ _ ih => rwa [reach_entry hentry]
  | file hentry hthere =>
    rw [reach_entry hentry]
    exact .file hthere
  | nothing hentry hthere =>
    rw [reach_entry hentry]
    exact .nothing hthere

theorem stands_of_lookup {t : FileTree} {p : Path} {target : Target}
    (h : t.lookup p = .ok target) : t.Stands (t.locate p) target := by
  rw [locate_eq_follow]
  unfold lookup at h
  split at h
  · exact absurd h (by simp)
  · split at h
    · exact absurd h (by simp)
    · split at h
      · exact absurd h (by simp)
      · exact (leads_of_walk h).stands

/-! ## Frames -/

/-- Nothing has changed but what is at the locations that were written to, and nothing is new but
    directories at the locations that were made, where nothing was before. -/
structure Frame (wrote made : Location → Prop) (t t' : FileTree) : Prop where
  workingDirectory : t'.workingDirectory = t.workingDirectory
  directories : ∀ l, t.get? l = some .directory → t'.get? l = some .directory
  elsewhere : ∀ l, ¬ wrote l →
    t'.get? l = t.get? l ∨ (made l ∧ t.get? l = none ∧ t'.get? l = some .directory)

namespace Frame

variable {wrote made : Location → Prop} {t t₁ t₂ : FileTree}

theorem refl (t : FileTree) : Frame wrote made t t :=
  ⟨rfl, fun _ h => h, fun _ _ => Or.inl rfl⟩

theorem trans (h₁ : Frame wrote made t t₁) (h₂ : Frame wrote made t₁ t₂) :
    Frame wrote made t t₂ := by
  refine ⟨h₂.workingDirectory.trans h₁.workingDirectory, ?_, ?_⟩
  · intro l hl
    exact h₂.directories l (h₁.directories l hl)
  · intro l hl
    rcases h₁.elsewhere l hl with hsame | ⟨hmade, hnone, hdirectory⟩
    · rcases h₂.elsewhere l hl with hsame' | ⟨hmade, hnone, hdirectory⟩
      · exact Or.inl (hsame'.trans hsame)
      · exact Or.inr ⟨hmade, hsame ▸ hnone, hdirectory⟩
    · exact Or.inr ⟨hmade, hnone, h₂.directories l hdirectory⟩

theorem mono {wrote' made' : Location → Prop} (h : Frame wrote made t t₁)
    (hwrote : ∀ l, wrote l → wrote' l) (hmade : ∀ l, made l → made' l) :
    Frame wrote' made' t t₁ := by
  refine ⟨h.workingDirectory, h.directories, ?_⟩
  intro l hl
  rcases h.elsewhere l fun hw => hl (hwrote l hw) with hsame | ⟨hm, hrest⟩
  · exact Or.inl hsame
  · exact Or.inr ⟨hmade l hm, hrest⟩

theorem start_eq (h : Frame wrote made t t₁) (p : Path) : t₁.start p = t.start p := by
  rw [start, start, h.workingDirectory]

theorem locate_eq (h : Frame wrote made t t₁) (p : Path) : t₁.locate p = t.locate p := by
  rw [locate_eq_follow, locate_eq_follow, h.start_eq]

/-- A file that was not written to stays. -/
theorem get?_file (h : Frame wrote made t t₁) {l : Location} {contents : ByteArray}
    (hl : ¬ wrote l) (hfile : t.get? l = some (.file contents)) :
    t₁.get? l = some (.file contents) := by
  rcases h.elsewhere l hl with hsame | ⟨-, hnone, -⟩
  · rw [hsame, hfile]
  · rw [hnone] at hfile
    exact absurd hfile (by simp)

end Frame

theorem get?_nil (t : FileTree) : t.get? [] = some .directory := rfl

theorem frame_insert_directory {t : FileTree} {l : Location} (h : t.get? l = none) :
    Frame (fun _ => False) (· = l) t (t.insert l .directory) := by
  have hroot : l ≠ [] := by
    rintro rfl
    simp [get?_nil] at h
  refine ⟨rfl, ?_, ?_⟩
  · intro k hk
    rw [get?_insert hroot]
    split
    · rfl
    · exact hk
  · intro k _
    rw [get?_insert hroot]
    by_cases hk : k = l
    · exact Or.inr ⟨hk, hk ▸ h, if_pos hk⟩
    · exact Or.inl (if_neg hk)

theorem frame_insert_file {made : Location → Prop} {t : FileTree} {l : Location}
    (h : t.get? l ≠ some .directory) (contents : ByteArray) :
    Frame (· = l) made t (t.insert l (.file contents)) := by
  have hroot : l ≠ [] := by
    rintro rfl
    exact h rfl
  refine ⟨rfl, ?_, ?_⟩
  · intro k hk
    have hne : k ≠ l := by
      rintro rfl
      exact h hk
    rw [get?_insert hroot, if_neg hne, hk]
  · intro k hk
    rw [get?_insert hroot]
    exact Or.inl (if_neg hk)

/-- What leads to a file, or to a place for one, still leads there as long as no directory goes, and
    finds the file that is there now. -/
theorem Leads.finds_file {t t' : FileTree} {here : Location} {pieces : List String}
    {target : Target} {contents : ByteArray} (h : t.Leads here pieces target)
    (hdirectories : ∀ l, t.get? l = some .directory → t'.get? l = some .directory)
    (htarget : ∀ l, target ≠ .directory l)
    (hfile : t'.get? (reach here pieces) = some (.file contents)) :
    t'.Leads here pieces (.file (reach here pieces) contents) := by
  induction h with
  | @here l => exact absurd rfl (htarget l)
  | stay hstay _ ih =>
    rw [reach_stay hstay] at hfile ⊢
    exact .stay hstay (ih htarget hfile)
  | parent _ ih =>
    rw [reach_parent] at hfile ⊢
    exact .parent (ih htarget hfile)
  | enter hentry hthere _ ih =>
    rw [reach_entry hentry] at hfile ⊢
    exact .enter hentry (hdirectories _ hthere) (ih htarget hfile)
  | file hentry _ =>
    rw [reach_entry hentry] at hfile ⊢
    exact .file hentry hfile
  | nothing hentry _ =>
    rw [reach_entry hentry] at hfile ⊢
    exact .file hentry hfile

theorem lookup_eq_file {t t' : FileTree} {p : Path} {target : Target} {contents : ByteArray}
    (hstart : t'.start p = t.start p)
    (hdirectories : ∀ l, t.get? l = some .directory → t'.get? l = some .directory)
    (h : t.lookup p = .ok target) (htarget : ∀ l, target ≠ .directory l)
    (hfile : t'.get? (t.locate p) = some (.file contents)) :
    t'.lookup p = .ok (.file (t.locate p) contents) := by
  rw [locate_eq_follow] at hfile ⊢
  unfold lookup at h ⊢
  split at h
  · exact absurd h (by simp)
  · next hname =>
    rw [if_neg hname]
    split at h
    · exact absurd h (by simp)
    · next hsize =>
      rw [if_neg hsize]
      split at h
      · exact absurd h (by simp)
      · next hempty =>
        rw [if_neg hempty]
        show t'.walk (t'.start p) p.pieces = _
        rw [hstart]
        exact walk_of_leads ((leads_of_walk h).finds_file hdirectories htarget hfile)

/-- What was written stays, as long as nothing is written there again. -/
theorem Frame.lookup_file {wrote made : Location → Prop} {t t' : FileTree}
    (h : Frame wrote made t t') {p : Path} {contents : ByteArray} (hp : ¬ wrote (t.locate p))
    (hfile : t.lookup p = .ok (.file (t.locate p) contents)) :
    t'.lookup p = .ok (.file (t.locate p) contents) := by
  have hthere : t.get? (t.locate p) = some (.file contents) := by
    cases stands_of_lookup hfile with
    | file hfile => exact hfile
  exact lookup_eq_file (h.start_eq p) h.directories hfile (by simp) (h.get?_file hp hthere)

/-- **A file that was written is there**, and nothing else has changed. -/
theorem frame_writeFile {made : Location → Prop} {t written : FileTree} {p : Path}
    {contents : ByteArray} (h : t.writeFile p contents = .ok written) :
    Frame (· = t.locate p) made t written ∧
      written.lookup p = .ok (.file (t.locate p) contents) := by
  obtain ⟨target, hlookup, htarget, hplace, rfl⟩ : ∃ target, t.lookup p = .ok target ∧
      (∀ l, target ≠ .directory l) ∧ t.get? (t.locate p) ≠ some .directory ∧
      written = t.insert (t.locate p) (.file contents) := by
    unfold writeFile at h
    split at h
    · next l old hlookup =>
      cases h
      cases stands_of_lookup hlookup with
      | file hfile => exact ⟨_, hlookup, by simp, by simp [hfile], rfl⟩
    · next l hlookup =>
      cases h
      cases stands_of_lookup hlookup with
      | nothing hnone => exact ⟨_, hlookup, by simp, by simp [hnone], rfl⟩
    · exact absurd h (by simp)
    · exact absurd h (by simp)
  have hroot : t.locate p ≠ [] := by
    intro hnil
    rw [hnil] at hplace
    exact hplace (get?_nil t)
  have hframe : Frame (· = t.locate p) made t (t.insert (t.locate p) (.file contents)) :=
    frame_insert_file hplace contents
  refine ⟨hframe, lookup_eq_file (hframe.start_eq p) hframe.directories hlookup htarget ?_⟩
  rw [get?_insert hroot, if_pos rfl]

/-! ## Directories -/

/-- The location is passed on the way to the last name of a path. -/
def OnTheWay (t : FileTree) (p : Path) (l : Location) : Prop :=
  ∃ front, front <+: p.names.dropLast ∧ l = follow (t.start p) front

theorem frame_makeDirectory {t made : FileTree} {p : Path} (h : t.makeDirectory p = .ok made) :
    Frame (fun _ => False) (· = t.locate p) t made := by
  unfold makeDirectory at h
  split at h
  · next l hlookup =>
    cases h
    cases stands_of_lookup hlookup with
    | nothing hnone => exact frame_insert_directory hnone
  · exact absurd h (by simp)
  · exact absurd h (by simp)

theorem frame_climb {t made : FileTree} {passed ps rest : List Path}
    (h : t.climb passed ps = .ok (made, rest)) :
    Frame (fun _ => False) (fun l => ∃ q ∈ ps, q.text ≠ "" ∧ l = t.locate q) t made ∧
      ∀ q ∈ rest, q ∈ passed ∨ (q ∈ ps ∧ q.text ≠ "") := by
  induction ps generalizing passed with
  | nil =>
    cases h
    exact ⟨.refl t, fun q hq => Or.inl hq⟩
  | cons p ps ih =>
    unfold climb at h
    by_cases hempty : p.text.isEmpty = true
    · rw [if_pos hempty] at h
      cases h
      exact ⟨.refl t, fun q hq => Or.inl hq⟩
    · rw [if_neg hempty] at h
      have hp : p.text ≠ "" := by simpa using hempty
      split at h
      · next tree htree =>
        cases h
        refine ⟨(frame_makeDirectory htree).mono (fun _ h => h) ?_, fun q hq => Or.inl hq⟩
        rintro l rfl
        exact ⟨p, List.mem_cons_self, hp, rfl⟩
      · obtain ⟨hframe, hrest⟩ := ih h
        constructor
        · refine hframe.mono (fun _ h => h) ?_
          rintro l ⟨q, hq, hl⟩
          exact ⟨q, List.mem_cons_of_mem p hq, hl⟩
        · intro q hq
          rcases hrest q hq with hpassed | ⟨hps, hne⟩
          · rcases List.mem_cons.1 hpassed with rfl | hpassed
            · exact Or.inr ⟨List.mem_cons_self, hp⟩
            · exact Or.inl hpassed
          · exact Or.inr ⟨List.mem_cons_of_mem p hps, hne⟩
      · split at h
        · cases h
          exact ⟨.refl t, fun q hq => Or.inl hq⟩
        · exact absurd h (by simp)
      · exact absurd h (by simp)

theorem frame_makeInTurn (t : FileTree) (ps : List Path) :
    Frame (fun _ => False) (fun l => ∃ q ∈ ps, l = t.locate q) t (t.makeInTurn ps).1 := by
  induction ps generalizing t with
  | nil => exact .refl t
  | cons p ps ih =>
    unfold makeInTurn
    split
    · next made hmade =>
      have hfirst := frame_makeDirectory hmade
      refine (hfirst.mono (fun _ h => h) ?_).trans ((ih made).mono (fun _ h => h) ?_)
      · rintro l rfl
        exact ⟨p, List.mem_cons_self, rfl⟩
      · rintro l ⟨q, hq, rfl⟩
        exact ⟨q, List.mem_cons_of_mem p hq, hfirst.locate_eq q⟩
    · split
      · refine (ih t).mono (fun _ h => h) ?_
        rintro l ⟨q, hq, rfl⟩
        exact ⟨q, List.mem_cons_of_mem p hq, rfl⟩
      · exact .refl t

/-- **Making directories changes no file**, and makes none but the path and what is above it. -/
theorem frame_makeDirectories (t : FileTree) (p : Path) :
    Frame (fun _ => False) (fun l => ∃ q ∈ p.ancestors, q.text ≠ "" ∧ l = t.locate q) t
      (t.makeDirectories p).1 := by
  unfold makeDirectories
  split
  · next made passed hclimb =>
    obtain ⟨hframe, hpassed⟩ := frame_climb hclimb
    refine hframe.trans ((frame_makeInTurn made passed).mono (fun _ h => h) ?_)
    rintro l ⟨q, hq, rfl⟩
    rcases hpassed q hq with hnil | ⟨hmem, hne⟩
    · exact absurd hnil List.not_mem_nil
    · exact ⟨q, hmem, hne, hframe.locate_eq q⟩
  · exact .refl t

/-! ## Files of one directory -/

theorem locate_join (t : FileTree) (dir : Path) {name : String} (h : Path.IsPlain name) :
    t.locate (dir.join ⟨name⟩) = t.locate dir ++ [name] := by
  obtain ⟨habsolute, hnames⟩ := Path.names_join dir h
  have hlast : step (t.locate dir) name = t.locate dir ++ [name] := by
    simp [step, h.no_parent]
  rw [locate_eq_follow, start, habsolute, hnames, follow, List.foldl_append, ← hlast,
    locate_eq_follow]
  rfl

theorem follow_eq_append {here : Location} {names : List String} (h : ".." ∉ names) :
    follow here names = here ++ names := by
  induction names generalizing here with
  | nil => simp [follow]
  | cons name names ih =>
    rw [List.mem_cons, not_or] at h
    have hstep : step here name = here ++ [name] := by simp [step, Ne.symm h.1]
    show follow (step here name) names = _
    rw [ih h.2, hstep, List.append_assoc]
    rfl

/-- Without a step back, no file is on the way to another. -/
theorem not_onTheWay {t : FileTree} {dir : Path} {name name' : String}
    (hdir : ".." ∉ dir.names) (h : Path.IsPlain name) (h' : Path.IsPlain name') :
    ¬ t.OnTheWay (dir.join ⟨name⟩) (t.locate (dir.join ⟨name'⟩)) := by
  rintro ⟨front, hfront, heq⟩
  obtain ⟨habsolute, hnames⟩ := Path.names_join dir h
  rw [hnames, List.dropLast_concat] at hfront
  have hback : ".." ∉ front := fun hmem => hdir (hfront.subset hmem)
  rw [locate_join t dir h', locate_eq_follow, follow_eq_append hdir, follow_eq_append hback, start,
    start, habsolute] at heq
  have hlength := congrArg List.length heq
  have hshort := hfront.length_le
  simp only [List.length_append, List.length_singleton] at hlength
  omega

end FileTree

/-! ## Files -/

namespace Output

open FileTree

theorem frame_prepare (t : FileTree) (path : Path) :
    Frame (fun _ => False) (t.OnTheWay path) t (prepare t path).1 := by
  unfold prepare
  cases hparent : path.parent with
  | none => exact .refl t
  | some parent =>
    by_cases hempty : parent.text.isEmpty = true
    · simp only [hempty, if_true]
      exact .refl t
    · have hne : parent.text ≠ "" := by simpa using hempty
      obtain ⟨habsolute, hnames⟩ := Path.names_parent hparent hne
      have hframe : Frame (fun _ => False) (t.OnTheWay path) t (t.makeDirectories parent).1 := by
        refine (frame_makeDirectories t parent).mono (fun _ h => h) ?_
        rintro l ⟨q, hq, hq', rfl⟩
        obtain ⟨habsolute', hnames'⟩ := Path.names_begin_of_mem_ancestorsUpTo hq hq'
        refine ⟨q.names, hnames ▸ hnames', ?_⟩
        rw [locate_eq_follow, start, start, habsolute', habsolute]
      simp only [hempty, Bool.false_eq_true, if_false]
      generalize t.makeDirectories parent = made at hframe ⊢
      obtain ⟨made, _ | _⟩ := made
      · exact hframe
      · exact hframe

theorem prepare_error {t prepared : FileTree} {path : Path} {failure : Failure}
    (h : prepare t path = (prepared, .error failure)) :
    ∃ parent fault, path.parent = some parent ∧ failure = .unwritten parent fault := by
  unfold prepare at h
  cases hparent : path.parent with
  | none => simp [hparent] at h
  | some parent =>
    simp only [hparent] at h
    split at h
    · simp at h
    · split at h
      · simp at h
      · next made fault _ =>
        cases h
        exact ⟨parent, fault, rfl, rfl⟩

/-- **What a write can do.** It puts the whole file in place, or it fails at the file or at its
    directory and changes no file. -/
theorem write_cases (t : FileTree) (file : OutputFile) :
    (∃ t', write t file = (t', .ok ()) ∧
      Frame (· = t.locate file.path) (t.OnTheWay file.path) t t' ∧
      t'.lookup file.path = .ok (.file (t.locate file.path) file.contents.toUTF8)) ∨
    (∃ t' path fault, write t file = (t', .error (.unwritten path fault)) ∧
      (path = file.path ∨ file.path.parent = some path) ∧
      Frame (fun _ => False) (t.OnTheWay file.path) t t') := by
  have hframe := frame_prepare t file.path
  unfold write
  cases hprepare : prepare t file.path with
  | mk prepared outcome =>
    rw [hprepare] at hframe
    cases outcome with
    | error failure =>
      obtain ⟨parent, fault, hparent, rfl⟩ := prepare_error hprepare
      exact Or.inr ⟨prepared, parent, fault, rfl, Or.inr hparent, hframe⟩
    | ok _ =>
      cases hwrite : prepared.writeFile file.path file.contents.toUTF8 with
      | error fault =>
        exact Or.inr ⟨prepared, file.path, fault, by simp only [hwrite], Or.inl rfl, hframe⟩
      | ok written =>
        obtain ⟨hwritten, hlookup⟩ := frame_writeFile hwrite
        rw [hframe.locate_eq] at hwritten hlookup
        refine Or.inl ⟨written, by simp only [hwrite], ?_, hlookup⟩
        exact (hframe.mono (fun _ h => h.elim) fun _ h => h).trans hwritten

/-- The location of one of the files. -/
def IsPlace (t : FileTree) (files : List OutputFile) (l : Location) : Prop :=
  ∃ f ∈ files, l = t.locate f.path

/-- A location on the way to one of the files. -/
def IsOnTheWay (t : FileTree) (files : List OutputFile) (l : Location) : Prop :=
  ∃ f ∈ files, t.OnTheWay f.path l

/-- The file is in place, with all its contents. -/
def InPlace (t t' : FileTree) (file : OutputFile) : Prop :=
  t'.lookup file.path = .ok (.file (t.locate file.path) file.contents.toUTF8)

/-- **What writing a list of files can do.** The files up to the first failure are all in place, and
    no other file has changed. The places of the files have to be different: otherwise a later file
    would take that of an earlier one. -/
theorem writeAll_cases {t : FileTree} {files : List OutputFile}
    (hapart : (files.map fun f => t.locate f.path).Nodup) :
    ∃ written rest, files = written ++ rest ∧
      Frame (IsPlace t written) (IsOnTheWay t files) t (writeAll t files).1 ∧
      (∀ f ∈ written, InPlace t (writeAll t files).1 f) ∧
      (((writeAll t files).2 = .ok () ∧ rest = []) ∨
        ∃ file later path fault, rest = file :: later ∧
          (path = file.path ∨ file.path.parent = some path) ∧
          (writeAll t files).2 = .error (.unwritten path fault)) := by
  induction files generalizing t with
  | nil => exact ⟨[], [], rfl, .refl t, by simp, Or.inl ⟨rfl, rfl⟩⟩
  | cons file files ih =>
    rw [List.map_cons, List.nodup_cons] at hapart
    obtain ⟨hfresh, hapart⟩ := hapart
    unfold writeAll
    rcases write_cases t file with ⟨t₁, hwrite, hframe, hlookup⟩ |
      ⟨t₁, path, fault, hwrite, hpath, hframe⟩
    · rw [hwrite]
      -- locations go by the working directory, which a write keeps
      have hlocate : ∀ f : OutputFile, t₁.locate f.path = t.locate f.path :=
        fun f => hframe.locate_eq f.path
      have hway : ∀ f : OutputFile, ∀ l, t₁.OnTheWay f.path l → t.OnTheWay f.path l := by
        rintro f l ⟨front, hfront, rfl⟩
        exact ⟨front, hfront, by rw [hframe.start_eq]⟩
      have hapart' : (files.map fun f => t₁.locate f.path).Nodup := by
        simpa only [hlocate] using hapart
      obtain ⟨written, rest, hfiles, hframe', hwritten, houtcome⟩ := ih hapart'
      refine ⟨file :: written, rest, by rw [hfiles, List.cons_append], ?_, ?_, houtcome⟩
      · refine (hframe.mono ?_ ?_).trans (hframe'.mono ?_ ?_)
        · rintro l rfl
          exact ⟨file, List.mem_cons_self, rfl⟩
        · intro l hl
          exact ⟨file, List.mem_cons_self, hl⟩
        · rintro l ⟨f, hf, rfl⟩
          exact ⟨f, List.mem_cons_of_mem file hf, hlocate f⟩
        · rintro l ⟨f, hf, hl⟩
          exact ⟨f, List.mem_cons_of_mem file hf, hway f l hl⟩
      · intro f hf
        rcases List.mem_cons.1 hf with rfl | hf
        · have hother : ¬ ∃ g ∈ written, t₁.locate f.path = t₁.locate g.path := by
            rintro ⟨g, hg, heq⟩
            rw [hlocate, hlocate] at heq
            refine hfresh (List.mem_map.2 ⟨g, ?_, heq.symm⟩)
            rw [hfiles]
            exact List.mem_append_left rest hg
          rw [InPlace]
          rw [← hlocate f] at hlookup ⊢
          exact hframe'.lookup_file hother hlookup
        · rw [InPlace, ← hlocate f]
          exact hwritten f hf
    · rw [hwrite]
      refine ⟨[], file :: files, rfl, ?_, by simp,
        Or.inr ⟨file, files, path, fault, rfl, hpath, rfl⟩⟩
      refine hframe.mono (fun _ h => h.elim) ?_
      intro l hl
      exact ⟨file, List.mem_cons_self, hl⟩

/-- Files of one directory with different paths have different places. -/
theorem nodup_locations {files : List OutputFile} {dir : Path}
    (hplain : ∀ f ∈ files, ∃ name, Path.IsPlain name ∧ f.path = dir.join ⟨name⟩)
    (hplaces : (places files).Nodup) (t : FileTree) :
    (files.map fun f => t.locate f.path).Nodup := by
  unfold places at hplaces
  rw [List.Nodup, List.pairwise_map] at hplaces ⊢
  refine hplaces.imp_of_mem fun {f g} hf hg hne heq => hne ?_
  obtain ⟨name, hname, hpath⟩ := hplain f hf
  obtain ⟨name', hname', hpath'⟩ := hplain g hg
  rw [hpath, hpath', locate_join t dir hname, locate_join t dir hname'] at heq
  obtain rfl : name = name' := by simpa using heq
  rw [hpath, hpath']

/-- A place that was not written to is as it was, unless it was passed on the way to another
    file. -/
theorem get?_of_not_written {t t' : FileTree} {written rest : List OutputFile} {dir : Path}
    (hplain : ∀ f ∈ written ++ rest, ∃ name, Path.IsPlain name ∧ f.path = dir.join ⟨name⟩)
    (hapart : ((written ++ rest).map fun f => t.locate f.path).Nodup)
    (hframe : Frame (IsPlace t written) (IsOnTheWay t (written ++ rest)) t t') {f : OutputFile}
    (hf : f ∈ rest) :
    t'.get? (t.locate f.path) = t.get? (t.locate f.path) ∨
      (".." ∈ dir.names ∧ t.get? (t.locate f.path) = none ∧
        t'.get? (t.locate f.path) = some .directory) := by
  have hother : ¬ IsPlace t written (t.locate f.path) := by
    rintro ⟨g, hg, heq⟩
    rw [List.map_append] at hapart
    exact List.disjoint_of_nodup_append hapart (List.mem_map.2 ⟨g, hg, rfl⟩)
      (List.mem_map.2 ⟨f, hf, heq⟩)
  rcases hframe.elsewhere _ hother with hsame | ⟨⟨g, hg, hway⟩, hnone, hdirectory⟩
  · exact Or.inl hsame
  · refine Or.inr ⟨?_, hnone, hdirectory⟩
    by_contra hback
    obtain ⟨name, hname, hpath⟩ := hplain g hg
    obtain ⟨name', hname', hpath'⟩ := hplain f (List.mem_append_right written hf)
    rw [hpath, hpath'] at hway
    exact not_onTheWay hback hname hname' hway

end Output

/-! ## Whole runs -/

namespace Compilation

open FileTree Output

theorem separator_not_mem_typesSuffix {s : Settings} (h : s.validate = .ok ()) :
    '/' ∉ s.code.typesSuffix.toList := by
  have hpart : Settings.isNamePart s.code.typesSuffix = true := by
    grind [Settings.validate, Settings.fault?]
  intro hmem
  rw [Settings.isNamePart, Bool.and_eq_true, List.all_eq_true] at hpart
  exact absurd (hpart.2 '/' hmem) (by decide)

/-- The files of a run lie side by side in the output directory. -/
theorem files_of_compile {t : FileTree} {s : Settings} {report : Report} {files : List OutputFile}
    (h : (compile t s).result = .ok (report, files)) :
    report.files = files.map OutputFile.path ∧ (places files).Nodup ∧
      ∀ f ∈ files, ∃ name, Path.IsPlain name ∧ f.path = s.outputDir.join ⟨name⟩ := by
  unfold compile at h
  simp only [Logged.result_bind, Logged.result_ofExcept, Outcome.bind_eq_ok_iff,
    Logged.result_pure, Except.ok.injEq, Prod.mk.injEq] at h
  obtain ⟨_, hvalid, sources, -, made, hmade, rfl, rfl⟩ := h
  obtain ⟨run, rfl⟩ := result_compileSources_eq_ok_iff.1 hmade
  refine ⟨rfl, run.files_apart, ?_⟩
  intro f hf
  obtain ⟨p, -, hp⟩ := List.mem_flatMap.1 hf
  obtain ⟨base, hplain, hpath⟩ :=
    exists_isPlain_of_mem_ofModule (separator_not_mem_typesSuffix hvalid) hp
  exact ⟨base ++ ".go", hplain, hpath⟩

theorem tree_runCommand_check (t : FileTree) (o : CommandLine.Options) :
    (CommandLine.runCommand t .check o).tree = t := by
  unfold CommandLine.runCommand
  cases CommandLine.settings t o with
  | error failure => rfl
  | ok s =>
    simp only [CommandLine.Outcome.ofReport]
    cases (check t s).result with
    | error failure => rfl
    | ok report => rfl

theorem generate_of_error {t : FileTree} {s : Settings} {failure : Failure}
    (h : (compile t s).result = .error failure) :
    (generate t s).1 = t ∧ (generate t s).2.result = .error failure := by
  simp only [generate, h, and_self]

theorem generate_of_ok {t : FileTree} {s : Settings} {report : Report} {files : List OutputFile}
    (h : (compile t s).result = .ok (report, files)) :
    (generate t s).1 = (writeAll t files).1 ∧
      (generate t s).2.result = (writeAll t files).2.map fun _ => report := by
  simp only [generate, h, and_self]

/-- **A run writes what it has finished and nothing else.** Checking writes nothing, and neither
    does a run that fails before its files are finished. A run that succeeds leaves every file of
    its report in place. One that fails at a file leaves the files before it in place and those
    after it as they were; only if the output directory is named with a step back can a directory
    come to be where one of these should be. No other file changes, and new directories are on the
    way to a file. -/
theorem leaves_finished_files_only (t : FileTree) (s : Settings) :
    (∀ o, (CommandLine.runCommand t .check o).tree = t) ∧
    (∀ failure, (generate t s).2.result = .error failure →
      (∀ path fault, failure ≠ .unwritten path fault) → (generate t s).1 = t) ∧
    (∀ report, (generate t s).2.result = .ok report →
      ∃ files, (compile t s).result = .ok (report, files) ∧
        report.files = files.map OutputFile.path ∧
        (∀ f ∈ files, InPlace t (generate t s).1 f) ∧
        Frame (IsPlace t files) (IsOnTheWay t files) t (generate t s).1) ∧
    (∀ path fault, (generate t s).2.result = .error (.unwritten path fault) →
      ∃ report earlier file later,
        (compile t s).result = .ok (report, earlier ++ file :: later) ∧
        (path = file.path ∨ file.path.parent = some path) ∧
        (∀ f ∈ earlier, InPlace t (generate t s).1 f) ∧
        (∀ f ∈ later, (generate t s).1.get? (t.locate f.path) = t.get? (t.locate f.path) ∨
          (".." ∈ s.outputDir.names ∧ t.get? (t.locate f.path) = none ∧
            (generate t s).1.get? (t.locate f.path) = some .directory)) ∧
        Frame (IsPlace t earlier) (IsOnTheWay t (earlier ++ file :: later)) t
          (generate t s).1) := by
  refine ⟨tree_runCommand_check t, ?_⟩
  cases hcompile : (compile t s).result with
  | error failure =>
    obtain ⟨htree, hresult⟩ := generate_of_error hcompile
    have hearly := failsEarly_compile t s failure hcompile
    rw [htree, hresult]
    refine ⟨fun _ _ _ => rfl, fun report h => absurd h (by simp), ?_⟩
    rintro path fault ⟨⟩
    exact hearly.elim
  | ok compiled =>
    obtain ⟨report, files⟩ := compiled
    obtain ⟨hreport, hplaces, hplain⟩ := files_of_compile hcompile
    have hapart := nodup_locations hplain hplaces t
    obtain ⟨htree, hresult⟩ := generate_of_ok hcompile
    obtain ⟨written, rest, hfiles, hframe, hwritten, houtcome⟩ := writeAll_cases hapart
    rw [← htree] at hframe hwritten
    rcases houtcome with ⟨hok, rfl⟩ | ⟨file, later, path, fault, rfl, hpath, herror⟩
    · rw [hok] at hresult
      rw [List.append_nil] at hfiles
      subst hfiles
      rw [hresult]
      refine ⟨fun failure h => absurd h (by simp [Except.map]), ?_, ?_⟩
      · rintro _ ⟨⟩
        exact ⟨files, rfl, hreport, hwritten, hframe⟩
      · intro path fault h
        exact absurd h (by simp [Except.map])
    · rw [herror] at hresult
      subst hfiles
      rw [hresult]
      refine ⟨?_, fun report h => absurd h (by simp [Except.map]), ?_⟩
      · rintro _ ⟨⟩ hother
        exact absurd rfl (hother path fault)
      · rintro _ _ ⟨⟩
        refine ⟨report, written, file, later, rfl, hpath, hwritten, ?_, hframe⟩
        intro f hf
        exact get?_of_not_written hplain hapart hframe (List.mem_cons_of_mem file hf)

/-- A file whose name is a letter is found by that letter. -/
theorem filesMatching_letter {t : FileTree} {c : Char}
    (h : Glob.Pattern.parse ((⟨"."⟩ : Path).join ⟨String.ofList [c]⟩).text
        = .ok ⟨false, [.name [.char '.'], .name [.char c]], false⟩ ∧
      Glob.Pattern.search t ⟨false, [.name [.char '.'], .name [.char c]], false⟩
        = .ok [⟨String.ofList [c]⟩] ∧
      [(⟨String.ofList [c]⟩ : Path)].all t.isFile = true) :
    filesMatching t ⟨"."⟩ (String.ofList [c]) = .ok [⟨String.ofList [c]⟩] :=
  filesMatching_eq_ok h.1 h.2.1 h.2.2 (List.pairwise_singleton _ _)

/-- Three sources with nothing in them, and a directory where the code for the second one goes. -/
def blockedTree : FileTree :=
  ⟨[], [(["a"], .file "{}".toUTF8), (["b"], .file "{}".toUTF8), (["c"], .file "{}".toUTF8),
    (["b.go"], .directory)]⟩

def blockedSettings : Settings :=
  { Settings.default with globs := ["a", "b", "c"], outputDir := ⟨"."⟩ }

theorem result_compile_blocked :
    (compile blockedTree blockedSettings).result = do
      let sources ← [⟨"a"⟩, ⟨"b"⟩, ⟨"c"⟩].mapM fun path => loadSource blockedTree path
      let files ← (compileSources blockedSettings sources).result
      return (Report.of sources files, files) := by
  refine result_compile (by decide +kernel) ((result_findSources
    (.cons (filesMatching_letter (c := 'a') (by decide +kernel))
      (.cons (filesMatching_letter (c := 'b') (by decide +kernel))
        (.cons (filesMatching_letter (c := 'c') (by decide +kernel)) .nil)))).trans ?_)
  decide +kernel

/-- The file before the one that cannot be written is in place, and nothing is where the one after
    it should be. -/
theorem blocked_leaves_finished_files :
    (generate blockedTree blockedSettings).2.result
        = .error (.unwritten ⟨"./b.go"⟩ .isADirectory) ∧
      ∃ report earlier file later,
        (compile blockedTree blockedSettings).result = .ok (report, earlier ++ file :: later) ∧
        earlier.map OutputFile.path = [⟨"./a.go"⟩] ∧ file.path = ⟨"./b.go"⟩ ∧
        later.map OutputFile.path = [⟨"./c.go"⟩] ∧
        (∀ f ∈ earlier, InPlace blockedTree (generate blockedTree blockedSettings).1 f) ∧
        ∀ f ∈ later, (generate blockedTree blockedSettings).1.get? (blockedTree.locate f.path)
          = blockedTree.get? (blockedTree.locate f.path) := by
  have hfails : (generate blockedTree blockedSettings).2.result
      = .error (.unwritten ⟨"./b.go"⟩ .isADirectory) := by
    unfold generate
    dsimp only
    rw [result_compile_blocked]
    decide +kernel
  have hpaths : (compile blockedTree blockedSettings).result.map
      (fun made => made.2.map OutputFile.path) = .ok [⟨"./a.go"⟩, ⟨"./b.go"⟩, ⟨"./c.go"⟩] := by
    rw [result_compile_blocked]
    decide +kernel
  obtain ⟨-, -, -, hleft⟩ := leaves_finished_files_only blockedTree blockedSettings
  obtain ⟨report, earlier, file, later, hcompile, hpath, hearlier, hlater, -⟩ := hleft _ _ hfails
  rw [hcompile] at hpaths
  replace hpaths : (earlier ++ file :: later).map OutputFile.path
      = [⟨"./a.go"⟩, ⟨"./b.go"⟩, ⟨"./c.go"⟩] := Except.ok.inj hpaths
  have hfile : file.path = ⟨"./b.go"⟩ := by
    have hmem : file.path ∈ [(⟨"./a.go"⟩ : Path), ⟨"./b.go"⟩, ⟨"./c.go"⟩] :=
      hpaths ▸ List.mem_map_of_mem (by simp)
    have hnone : ∀ p ∈ [(⟨"./a.go"⟩ : Path), ⟨"./b.go"⟩, ⟨"./c.go"⟩],
        p.parent ≠ some ⟨"./b.go"⟩ := by
      decide +kernel
    exact (hpath.resolve_right (hnone _ hmem)).symm
  have hsplit : earlier.map OutputFile.path = [⟨"./a.go"⟩] ∧
      later.map OutputFile.path = [⟨"./c.go"⟩] := by
    rw [List.map_append, List.map_cons, hfile] at hpaths
    rcases earlier with _ | ⟨first, _ | ⟨second, _ | ⟨third, rest⟩⟩⟩
    · simp at hpaths
    · simpa using hpaths
    · simp at hpaths
    · simp at hpaths
  refine ⟨hfails, report, earlier, file, later, hcompile, hsplit.1, hfile, hsplit.2, hearlier, ?_⟩
  intro f hf
  have hstraight : ".." ∉ blockedSettings.outputDir.names := by decide +kernel
  exact (hlater f hf).resolve_right fun hback => hstraight hback.1

/-- Two sources with nothing in them. -/
def detourTree : FileTree := ⟨[], [(["a"], .file "{}".toUTF8), (["b"], .file "{}".toUTF8)]⟩

/-- The output directory is the working directory, named by way of the files that go there. -/
def detourSettings : Settings :=
  { Settings.default with globs := ["a", "b"], outputDir := ⟨"a.go/../b.go/.."⟩ }

theorem result_compile_detour :
    (compile detourTree detourSettings).result = do
      let sources ← [⟨"a"⟩, ⟨"b"⟩].mapM fun path => loadSource detourTree path
      let files ← (compileSources detourSettings sources).result
      return (Report.of sources files, files) := by
  refine result_compile (by decide +kernel) ((result_findSources
    (.cons (filesMatching_letter (c := 'a') (by decide +kernel))
      (.cons (filesMatching_letter (c := 'b') (by decide +kernel)) .nil))).trans ?_)
  decide +kernel

/-- The run fails at the first file, and there is a directory where the second one should be. -/
theorem detour_leaves_directory :
    (compile detourTree detourSettings).result.map (fun made => made.2.map OutputFile.path)
        = .ok [⟨"a.go/../b.go/../a.go"⟩, ⟨"a.go/../b.go/../b.go"⟩] ∧
      (generate detourTree detourSettings).2.result
        = .error (.unwritten ⟨"a.go/../b.go/../a.go"⟩ .isADirectory) ∧
      detourTree.get? (detourTree.locate ⟨"a.go/../b.go/../b.go"⟩) = none ∧
      (generate detourTree detourSettings).1.get?
        (detourTree.locate ⟨"a.go/../b.go/../b.go"⟩) = some .directory := by
  have hpaths : (compile detourTree detourSettings).result.map
      (fun made => made.2.map OutputFile.path)
        = .ok [⟨"a.go/../b.go/../a.go"⟩, ⟨"a.go/../b.go/../b.go"⟩] := by
    rw [result_compile_detour]
    decide +kernel
  have hleft : (generate detourTree detourSettings).2.result
        = .error (.unwritten ⟨"a.go/../b.go/../a.go"⟩ .isADirectory) ∧
      (generate detourTree detourSettings).1.get?
        (detourTree.locate ⟨"a.go/../b.go/../b.go"⟩) = some .directory := by
    unfold generate
    dsimp only
    rw [result_compile_detour]
    decide +kernel
  exact ⟨hpaths, hleft.1, by decide +kernel, hleft.2⟩

end Compilation

end GoBindings
