import GoBindings.Proofs.PathComponents
import GoBindings.Proofs.Writing
import Mathlib.Data.List.Induction

set_option autoImplicit false

/-! # Which sources are found, and in which order

Every pattern gives a sorted list of files, and the lists are put together one after the other, each
path at the first place where it comes up. `Merged` is what holds after every list: nothing is lost,
nothing is added, and the paths are ordered by the first list that has them and then among
themselves. One more list keeps it (`Merged.addNew`), so it holds at the end (`merged_foldl`),
whatever search makes the lists (`ordered_foldl`). Which paths are found depends on the set of
patterns alone, and so does what is loaded from them. -/

namespace GoBindings

namespace Path

theorem same_eq_true_iff {p q : Path} : p.same q = true ↔ p.components = q.components := by
  simp [same]

theorem same_eq_false_iff {p q : Path} : p.same q = false ↔ p.components ≠ q.components := by
  simp [same]

end Path

namespace Compilation

open Outcome

/-! ## Order of paths in lists -/

/-- The place of the first list that has a path. -/
def firstIn (lists : List (List Path)) (p : Path) : Nat :=
  lists.findIdx fun files => files.any p.same

theorem firstIn_lt_length {lists : List (List Path)} {files : List Path} {p : Path}
    (hfiles : files ∈ lists) (hp : p ∈ files) : firstIn lists p < lists.length :=
  List.findIdx_lt_length_of_exists
    ⟨files, hfiles, List.any_eq_true.2 ⟨p, hp, Path.same_eq_true_iff.2 rfl⟩⟩

theorem firstIn_append {lists more : List (List Path)} {p : Path}
    (h : firstIn lists p < lists.length) : firstIn (lists ++ more) p = firstIn lists p := by
  unfold firstIn at h ⊢
  rw [List.findIdx_append, if_pos h]

theorem firstIn_append_of_new {lists : List (List Path)} {files : List Path} {p : Path}
    (hnew : ∀ earlier ∈ lists, ∀ q ∈ earlier, p.components ≠ q.components) (hp : p ∈ files) :
    firstIn (lists ++ [files]) p = lists.length := by
  have hnone : lists.findIdx (fun files => files.any p.same) = lists.length := by
    refine List.findIdx_eq_length.2 fun earlier hearlier => ?_
    rw [List.any_eq_false]
    intro q hq hsame
    exact hnew earlier hearlier q hq (Path.same_eq_true_iff.1 hsame)
  have hhere : files.any p.same = true :=
    List.any_eq_true.2 ⟨p, hp, Path.same_eq_true_iff.2 rfl⟩
  rw [firstIn, List.findIdx_append, hnone, if_neg (Nat.lt_irrefl _), List.findIdx_singleton,
    if_pos hhere, Nat.zero_add]

/-- By place, and then in the order of paths. -/
def Before (place : Path → Nat) (p q : Path) : Prop :=
  place p < place q ∨ (place p = place q ∧ p.le q = true ∧ p.same q = false)

theorem Before.asymm {place : Path → Nat} {p q : Path} (h : Before place p q) :
    ¬ Before place q p := by
  rintro (hlt | ⟨heq, hle, -⟩)
  · rcases h with hlt' | ⟨heq, -⟩
    · omega
    · omega
  · rcases h with hlt | ⟨-, hle', hsame⟩
    · omega
    · exact Path.same_eq_false_iff.1 hsame (Path.leComponents_antisymm hle' hle)

/-- A path has the place of every other path with its components. -/
theorem Before.apart {lists : List (List Path)} {p q : Path} (h : Before (firstIn lists) p q) :
    p.same q = false := by
  rcases h with hlt | ⟨-, -, hsame⟩
  · rw [Path.same_eq_false_iff]
    intro hsame
    have hplace : firstIn lists p = firstIn lists q := by
      unfold firstIn Path.same
      rw [hsame]
    omega
  · exact hsame

/-- Of two paths in an ordered list, one stands in front of the other exactly if it is before it. -/
theorem pair_sublist_iff {place : Path → Nat} {paths : List Path}
    (h : paths.Pairwise (Before place)) {p q : Path} (hp : p ∈ paths) (hq : q ∈ paths) :
    [p, q].Sublist paths ↔ Before place p q := by
  constructor
  · intro hsub
    exact List.pairwise_pair.1 (h.sublist hsub)
  · intro hbefore
    obtain ⟨front, back, rfl⟩ := List.append_of_mem hp
    rcases List.mem_append.1 hq with hq | hq
    · -- the other way round it would be before itself
      have hback := (List.pairwise_append.1 h).2.2 q hq p List.mem_cons_self
      exact absurd hbefore hback.asymm
    · rcases List.mem_cons.1 hq with rfl | hq
      · exact absurd hbefore hbefore.asymm
      · have hpair : [p, q].Sublist (p :: back) := (List.singleton_sublist.2 hq).cons_cons p
        exact hpair.trans (List.sublist_append_right front _)

/-! ## One list after the other -/

/-- What is added to the paths that are there: paths of the list that are new, each once. -/
theorem exists_fresh (paths files : List Path) :
    ∃ fresh, addNew paths files = paths ++ fresh ∧ fresh.Sublist files ∧
      (∀ p ∈ fresh, ∀ q ∈ paths, p.components ≠ q.components) ∧
      fresh.Pairwise (fun p q => p.components ≠ q.components) ∧
      ∀ p ∈ files, ∃ q ∈ paths ++ fresh, q.components = p.components := by
  induction files generalizing paths with
  | nil => exact ⟨[], by simp [addNew]⟩
  | cons p files ih =>
    by_cases hp : paths.any p.same = true
    · obtain ⟨fresh, happend, hsub, hnew, hapart, hall⟩ := ih paths
      refine ⟨fresh, by rw [addNew, if_pos hp, happend], hsub.cons p, hnew, hapart, ?_⟩
      refine List.forall_mem_cons.2 ⟨?_, hall⟩
      obtain ⟨q, hq, hsame⟩ := List.any_eq_true.1 hp
      exact ⟨q, List.mem_append_left fresh hq, (Path.same_eq_true_iff.1 hsame).symm⟩
    · obtain ⟨fresh, happend, hsub, hnew, hapart, hall⟩ := ih (paths ++ [p])
      rw [List.append_assoc, List.singleton_append] at happend hall
      have hout : ∀ q ∈ paths, p.components ≠ q.components := by
        intro q hq hsame
        exact hp (List.any_eq_true.2 ⟨q, hq, Path.same_eq_true_iff.2 hsame⟩)
      refine ⟨p :: fresh, by rw [addNew, if_neg hp, happend], hsub.cons_cons p, ?_, ?_, ?_⟩
      · refine List.forall_mem_cons.2 ⟨hout, fun r hr q hq => ?_⟩
        exact hnew r hr q (List.mem_append_left [p] hq)
      · refine List.pairwise_cons.2 ⟨fun r hr => ?_, hapart⟩
        exact (hnew r hr p (List.mem_append_right paths List.mem_cons_self)).symm
      · refine List.forall_mem_cons.2 ⟨?_, hall⟩
        exact ⟨p, List.mem_append_right paths List.mem_cons_self, rfl⟩

/-- The paths of some lists, each at the first place where it comes up. -/
structure Merged (lists : List (List Path)) (paths : List Path) : Prop where
  found : ∀ p ∈ paths, ∃ files ∈ lists, p ∈ files
  complete : ∀ files ∈ lists, ∀ p ∈ files, ∃ q ∈ paths, q.components = p.components
  ordered : paths.Pairwise (Before (firstIn lists))

/-- **One more list.** Paths that were there keep their places, and new ones come behind them. -/
theorem Merged.addNew {lists : List (List Path)} {paths files : List Path} (h : Merged lists paths)
    (hsorted : files.Pairwise fun p q => p.le q = true) :
    Merged (lists ++ [files]) (addNew paths files) := by
  obtain ⟨fresh, happend, hsub, hnew, hapart, hall⟩ := exists_fresh paths files
  have hold : ∀ p ∈ paths, firstIn lists p < lists.length := by
    intro p hp
    obtain ⟨earlier, hearlier, hmem⟩ := h.found p hp
    exact firstIn_lt_length hearlier hmem
  have hplace : ∀ p ∈ fresh, firstIn (lists ++ [files]) p = lists.length := by
    intro p hp
    refine firstIn_append_of_new (fun earlier hearlier q hq hsame => ?_) (hsub.subset hp)
    obtain ⟨r, hr, hcomponents⟩ := h.complete earlier hearlier q hq
    exact hnew p hp r hr (hsame.trans hcomponents.symm)
  rw [happend]
  refine ⟨?_, ?_, List.pairwise_append.2 ⟨?_, ?_, ?_⟩⟩
  · intro p hp
    rcases List.mem_append.1 hp with hp | hp
    · obtain ⟨earlier, hearlier, hmem⟩ := h.found p hp
      exact ⟨earlier, List.mem_append_left [files] hearlier, hmem⟩
    · exact ⟨files, List.mem_append_right lists List.mem_cons_self, hsub.subset hp⟩
  · intro list hlist p hp
    rcases List.mem_append.1 hlist with hlist | hlist
    · obtain ⟨q, hq, hsame⟩ := h.complete list hlist p hp
      exact ⟨q, List.mem_append_left fresh hq, hsame⟩
    · rw [List.mem_singleton.1 hlist] at hp
      exact hall p hp
  · refine h.ordered.imp_of_mem fun {p q} hp hq hbefore => ?_
    rwa [Before, firstIn_append (hold p hp), firstIn_append (hold q hq)]
  · have hboth : fresh.Pairwise fun p q => p.le q = true ∧ p.components ≠ q.components :=
      (hsorted.sublist hsub).and hapart
    refine hboth.imp_of_mem fun {p q} hp hq ⟨hle, hne⟩ => ?_
    exact Or.inr ⟨by rw [hplace p hp, hplace q hq], hle, Path.same_eq_false_iff.2 hne⟩
  · intro p hp q hq
    refine Or.inl ?_
    rw [firstIn_append (hold p hp), hplace q hq]
    exact hold p hp

theorem merged_foldl {lists : List (List Path)}
    (hsorted : ∀ files ∈ lists, files.Pairwise fun p q => p.le q = true) :
    Merged lists (lists.foldl Compilation.addNew []) := by
  induction lists using List.reverseRecOn with
  | nil => exact ⟨by simp, by simp, .nil⟩
  | append_singleton lists files ih =>
    rw [List.foldl_append, List.foldl_cons, List.foldl_nil]
    refine (ih fun earlier hearlier => ?_).addNew ?_
    · exact hsorted earlier (List.mem_append_left [files] hearlier)
    · exact hsorted files (List.mem_append_right lists List.mem_cons_self)

/-! ## Any search -/

section Search

variable {search : String → List Path} {isFile : Path → Bool}

/-- The files that a search finds for a pattern, in order. -/
def filesFound (search : String → List Path) (isFile : Path → Bool) (pattern : String) :
    List Path :=
  ((search pattern).filter isFile).mergeSort Path.le

/-- A search finds a path for a pattern, and a file is there. -/
def findsFile (search : String → List Path) (isFile : Path → Bool) (p : Path) (pattern : String) :
    Bool :=
  (search pattern).any fun q => isFile q && p.same q

/-- The files that are found for patterns, by pattern and then in order, each once. -/
structure Ordered (search : String → List Path) (isFile : Path → Bool) (patterns : List String)
    (paths : List Path) : Prop where
  apart : paths.Pairwise fun p q => p.same q = false
  found : ∀ p ∈ paths, isFile p = true ∧ ∃ pattern ∈ patterns, p ∈ search pattern
  /-- Exactly the files that are found, whichever text stands for a path. -/
  complete : ∀ p, (∃ q ∈ paths, q.same p = true) ↔
    ∃ pattern ∈ patterns, findsFile search isFile p pattern = true
  /-- By the first pattern for which a file is found. -/
  ordered : ∀ p ∈ paths, ∀ q ∈ paths, [p, q].Sublist paths ↔
    Before (fun p => patterns.findIdx (findsFile search isFile p)) p q

theorem sorted_filesFound (pattern : String) :
    (filesFound search isFile pattern).Pairwise fun p q => p.le q = true := by
  refine List.pairwise_mergeSort ?_ ?_ _
  · exact fun p q r => Path.leComponents_trans
  · intro p q
    rw [Bool.or_eq_true]
    exact Path.leComponents_total p.components q.components

theorem mem_filesFound {pattern : String} {p : Path} :
    p ∈ filesFound search isFile pattern ↔ p ∈ search pattern ∧ isFile p = true :=
  (List.mergeSort_perm _ _).mem_iff.trans List.mem_filter

theorem any_filesFound (pattern : String) (p : Path) :
    (filesFound search isFile pattern).any p.same = findsFile search isFile p pattern := by
  rw [filesFound, (List.mergeSort_perm _ _).any_eq, List.any_filter, findsFile]

/-- **Whatever a search finds,** the files for each pattern are put together by pattern and then in
    order, each once. -/
theorem ordered_foldl (search : String → List Path) (isFile : Path → Bool)
    (patterns : List String) :
    Ordered search isFile patterns
      ((patterns.map (filesFound search isFile)).foldl addNew []) := by
  have hsorted : ∀ files ∈ patterns.map (filesFound search isFile),
      files.Pairwise fun p q => p.le q = true := by
    intro files hfiles
    obtain ⟨pattern, -, rfl⟩ := List.mem_map.1 hfiles
    exact sorted_filesFound pattern
  have hmerged := merged_foldl hsorted
  have hplace : firstIn (patterns.map (filesFound search isFile))
      = fun p => patterns.findIdx (findsFile search isFile p) := by
    funext p
    simp only [firstIn, List.findIdx_map, Function.comp_def, any_filesFound]
  have hordered := hmerged.ordered
  rw [hplace] at hordered
  refine ⟨hmerged.ordered.imp Before.apart, ?_, ?_,
    fun p hp q hq => pair_sublist_iff hordered hp hq⟩
  · intro p hp
    obtain ⟨_, hfiles, hmem⟩ := hmerged.found p hp
    obtain ⟨pattern, hpattern, rfl⟩ := List.mem_map.1 hfiles
    obtain ⟨hfound, hfile⟩ := mem_filesFound.1 hmem
    exact ⟨hfile, pattern, hpattern, hfound⟩
  · intro p
    constructor
    · rintro ⟨q, hq, hsame⟩
      obtain ⟨_, hfiles, hmem⟩ := hmerged.found q hq
      obtain ⟨pattern, hpattern, rfl⟩ := List.mem_map.1 hfiles
      refine ⟨pattern, hpattern, ?_⟩
      rw [← any_filesFound, List.any_eq_true]
      exact ⟨q, hmem, Path.same_eq_true_iff.2 (Path.same_eq_true_iff.1 hsame).symm⟩
    · rintro ⟨pattern, hpattern, hfinds⟩
      rw [← any_filesFound, List.any_eq_true] at hfinds
      obtain ⟨r, hr, hsame⟩ := hfinds
      obtain ⟨q, hq, hcomponents⟩ := hmerged.complete _ (List.mem_map_of_mem hpattern) r hr
      exact ⟨q, hq,
        Path.same_eq_true_iff.2 (hcomponents.trans (Path.same_eq_true_iff.1 hsame).symm)⟩

/-- Nothing is found exactly if the search finds no file for any pattern. -/
theorem Ordered.eq_nil_iff {patterns : List String} {paths : List Path}
    (h : Ordered search isFile patterns paths) :
    paths = [] ↔ ∀ pattern ∈ patterns, ∀ p, findsFile search isFile p pattern = false := by
  constructor
  · rintro rfl pattern hpattern p
    by_contra hfinds
    obtain ⟨q, hq, -⟩ := (h.complete p).2 ⟨pattern, hpattern, by simpa using hfinds⟩
    exact absurd hq List.not_mem_nil
  · intro hnone
    by_contra hne
    obtain ⟨p, hp⟩ := List.exists_mem_of_ne_nil paths hne
    obtain ⟨pattern, hpattern, hfinds⟩ := (h.complete p).1 ⟨p, hp, Path.same_eq_true_iff.2 rfl⟩
    rw [hnone pattern hpattern p] at hfinds
    exact absurd hfinds Bool.false_ne_true

section Reordered

variable {patterns patterns' : List String} {paths paths' : List Path}
  (h : Ordered search isFile patterns paths) (h' : Ordered search isFile patterns' paths')
  (hsame : ∀ pattern, pattern ∈ patterns' ↔ pattern ∈ patterns)
include h h' hsame

/-- What one list has, the other has too. -/
theorem Ordered.exists_components_eq {p : Path} (hp : p ∈ paths) :
    ∃ q ∈ paths', q.components = p.components := by
  obtain ⟨pattern, hpattern, hfinds⟩ := (h.complete p).1 ⟨p, hp, Path.same_eq_true_iff.2 rfl⟩
  obtain ⟨q, hq, hcomponents⟩ := (h'.complete p).2 ⟨pattern, (hsame pattern).2 hpattern, hfinds⟩
  exact ⟨q, hq, Path.same_eq_true_iff.1 hcomponents⟩

/-- Patterns in another order, or repeated, change the order of what is found only. -/
theorem Ordered.map_components_perm :
    (paths'.map Path.components).Perm (paths.map Path.components) := by
  have hnodup : ∀ {patterns : List String} {paths : List Path},
      Ordered search isFile patterns paths → (paths.map Path.components).Nodup := by
    intro patterns paths h
    rw [List.nodup_iff_pairwise_ne, List.pairwise_map]
    exact h.apart.imp Path.same_eq_false_iff.1
  rw [List.perm_ext_iff_of_nodup (hnodup h') (hnodup h)]
  intro c
  constructor
  · intro hc
    obtain ⟨q, hq, rfl⟩ := List.mem_map.1 hc
    obtain ⟨p, hp, heq⟩ := h'.exists_components_eq h (fun pattern => (hsame pattern).symm) hq
    exact List.mem_map.2 ⟨p, hp, heq⟩
  · intro hc
    obtain ⟨p, hp, rfl⟩ := List.mem_map.1 hc
    obtain ⟨q, hq, heq⟩ := h.exists_components_eq h' hsame hp
    exact List.mem_map.2 ⟨q, hq, heq⟩

end Reordered

end Search

/-! ## Files that patterns match -/

section Patterns

variable {t : FileTree} {root : Path}

/-- What a pattern finds below a root, files and directories. -/
def Finds (t : FileTree) (root : Path) (pattern : String) (found : List Path) : Prop :=
  ∃ glob, Glob.Pattern.parse (root.join ⟨pattern⟩).text = .ok glob ∧ glob.search t = .ok found

/-- A pattern matches a path, and a regular file is there. -/
def matchesFile (t : FileTree) (root p : Path) (pattern : String) : Bool :=
  match Glob.Pattern.parse (root.join ⟨pattern⟩).text with
  | .error _ => false
  | .ok glob =>
    match glob.search t with
    | .error _ => false
    | .ok found => found.any fun q => t.isFile q && p.same q

/-- The files that patterns match, by pattern and then in order, each once. -/
structure Selected (t : FileTree) (root : Path) (patterns : List String) (paths : List Path) :
    Prop where
  apart : paths.Pairwise fun p q => p.same q = false
  found : ∀ p ∈ paths, t.isFile p = true ∧
    ∃ pattern ∈ patterns, ∃ found, Finds t root pattern found ∧ p ∈ found
  /-- Exactly the matched files, whichever text stands for a path. -/
  complete : ∀ p, (∃ q ∈ paths, q.same p = true) ↔
    ∃ pattern ∈ patterns, matchesFile t root p pattern = true
  /-- By the first pattern that matches. -/
  ordered : ∀ p ∈ paths, ∀ q ∈ paths, [p, q].Sublist paths ↔
    Before (fun p => patterns.findIdx (matchesFile t root p)) p q

/-- The search of the program: what a pattern finds, and nothing where it fails. -/
def matching (t : FileTree) (root : Path) (pattern : String) : List Path :=
  match Glob.Pattern.parse (root.join ⟨pattern⟩).text with
  | .error _ => []
  | .ok glob =>
    match glob.search t with
    | .error _ => []
    | .ok found => found

theorem matching_of_finds {pattern : String} {found : List Path} (h : Finds t root pattern found) :
    matching t root pattern = found := by
  obtain ⟨glob, hparse, hsearch⟩ := h
  rw [matching, hparse]
  simp only [hsearch]

theorem filesMatching_of_finds {pattern : String} {found : List Path}
    (h : Finds t root pattern found) :
    filesMatching t root pattern = .ok (filesFound (matching t root) t.isFile pattern) := by
  rw [filesFound, matching_of_finds h]
  obtain ⟨glob, hparse, hsearch⟩ := h
  rw [filesMatching, hparse]
  simp only [hsearch]

theorem findsFile_matching (p : Path) (pattern : String) :
    findsFile (matching t root) t.isFile p pattern = matchesFile t root p pattern := by
  unfold findsFile matching matchesFile
  split
  · rfl
  · split <;> rfl

theorem Ordered.selected {patterns : List String} {paths : List Path}
    (h : Ordered (matching t root) t.isFile patterns paths)
    (hglob : ∀ pattern ∈ patterns, ∃ found, Finds t root pattern found) :
    Selected t root patterns paths := by
  refine ⟨h.apart, ?_, ?_, ?_⟩
  · intro p hp
    obtain ⟨hfile, pattern, hpattern, hmem⟩ := h.found p hp
    obtain ⟨found, hfinds⟩ := hglob pattern hpattern
    rw [matching_of_finds hfinds] at hmem
    exact ⟨hfile, pattern, hpattern, found, hfinds, hmem⟩
  · simpa only [findsFile_matching] using h.complete
  · have hplace : ∀ p, findsFile (matching t root) t.isFile p = matchesFile t root p :=
      fun p => funext (findsFile_matching p)
    simpa only [hplace] using h.ordered

/-- **Where no search fails, sources are found or nothing matches.** -/
theorem findSources_cases {patterns : List String}
    (hglob : ∀ pattern ∈ patterns, ∃ found, Finds t root pattern found) :
    ∃ paths, Ordered (matching t root) t.isFile patterns paths ∧
      (findSources t root patterns).result = if paths.isEmpty then
        .error (.badSettings (.nothingMatched patterns root)) else .ok paths := by
  refine ⟨_, ordered_foldl (matching t root) t.isFile patterns, result_findSources ?_⟩
  rw [List.forall₂_map_right_iff, List.forall₂_same]
  intro pattern hpattern
  obtain ⟨found, hfinds⟩ := hglob pattern hpattern
  exact filesMatching_of_finds hfinds

end Patterns

/-! ## Loading -/

/-- Two paths of the same components that lead to files lead to one file. -/
theorem readText_congr {t : FileTree} {p q : Path} (hp : t.isFile p = true)
    (hq : t.isFile q = true) (h : p.components = q.components) : t.readText p = t.readText q := by
  have hfile : ∀ {r : Path}, t.isFile r = true → ∃ contents,
      t.lookup r = .ok (.file (t.locate r) contents) ∧
        t.get? (t.locate r) = some (.file contents) := by
    intro r hr
    unfold FileTree.isFile at hr
    split at hr
    · next location contents hlookup =>
      cases FileTree.stands_of_lookup hlookup with
      | file hthere => exact ⟨contents, hlookup, hthere⟩
    · exact absurd hr Bool.false_ne_true
  have hlocate : t.locate p = t.locate q := by
    rw [FileTree.locate_eq_follow, FileTree.locate_eq_follow, FileTree.start, FileTree.start,
      Path.isAbsolute_congr h, Path.names_eq_filterMap p, h, ← Path.names_eq_filterMap q]
  obtain ⟨contents, hlookup, hthere⟩ := hfile hp
  obtain ⟨contents', hlookup', hthere'⟩ := hfile hq
  rw [hlocate, hthere'] at hthere
  cases hthere
  rw [FileTree.readText, FileTree.readText, hlookup, hlookup']

theorem loadSource_eq_ok_iff {t : FileTree} {p : Path} {source : Source} :
    loadSource t p = .ok source ↔ source.path = p ∧
      ∃ text, t.readText p = .ok text ∧ Schema.Document.parse text = .ok source.document := by
  obtain ⟨path, document⟩ := source
  unfold loadSource Source.parse
  cases hread : t.readText p with
  | error fault => simp
  | ok text =>
    cases hparse : Schema.Document.parse text with
    | error error => simp [hparse]
    | ok parsed => simp [hparse, eq_comm]

/-- What a source is, apart from the text of its path. -/
def content (source : Source) : List Path.Component × Schema.Document :=
  (source.path.components, source.document)

section Load

variable {t : FileTree} {paths : List Path} {sources : List Source}
  (h : List.Forall₂ (fun p source => loadSource t p = .ok source) paths sources)
include h

theorem mem_map_content_iff (c : List Path.Component × Schema.Document) :
    c ∈ sources.map content ↔ ∃ p ∈ paths, p.components = c.1 ∧
      ∃ text, t.readText p = .ok text ∧ Schema.Document.parse text = .ok c.2 := by
  constructor
  · intro hc
    obtain ⟨source, hsource, rfl⟩ := List.mem_map.1 hc
    obtain ⟨p, hp, hload⟩ := exists_of_mem_right h hsource
    obtain ⟨rfl, htext⟩ := loadSource_eq_ok_iff.1 hload
    exact ⟨source.path, hp, rfl, htext⟩
  · rintro ⟨p, hp, hcomponents, text, hread, hparse⟩
    obtain ⟨source, hsource, hload⟩ := exists_of_mem_left h hp
    obtain ⟨rfl, text', hread', hparse'⟩ := loadSource_eq_ok_iff.1 hload
    rw [hread'] at hread
    cases hread
    rw [hparse'] at hparse
    exact List.mem_map.2 ⟨source, hsource, Prod.ext hcomponents (Except.ok.inj hparse)⟩

theorem nodup_map_content (hapart : paths.Pairwise fun p q => p.same q = false) :
    (sources.map content).Nodup := by
  have hpaths : sources.map Source.path = paths := by
    induction h with
    | nil => rfl
    | cons hload _ ih =>
      rw [List.map_cons, ih (List.pairwise_cons.1 hapart).2, (loadSource_eq_ok_iff.1 hload).1]
  rw [← hpaths, List.pairwise_map] at hapart
  rw [List.nodup_iff_pairwise_ne, List.pairwise_map]
  refine hapart.imp fun {a b} hne hcontent => ?_
  exact Path.same_eq_false_iff.1 hne (congrArg Prod.fst hcontent)

end Load

/-- Paths that the same patterns find are all loaded, or none is. -/
theorem Ordered.exists_loaded_perm {t : FileTree} {search : String → List Path}
    {patterns patterns' : List String} {paths paths' : List Path} {sources : List Source}
    (h : Ordered search t.isFile patterns paths) (h' : Ordered search t.isFile patterns' paths')
    (hsame : ∀ pattern, pattern ∈ patterns' ↔ pattern ∈ patterns)
    (hload : List.Forall₂ (fun p source => loadSource t p = .ok source) paths sources) :
    ∃ sources', List.Forall₂ (fun p source => loadSource t p = .ok source) paths' sources' ∧
      (sources'.map content).Perm (sources.map content) := by
  have hback : ∀ pattern, pattern ∈ patterns ↔ pattern ∈ patterns' :=
    fun pattern => (hsame pattern).symm
  -- paths of the same components are both files, so they have the same text
  have hread : ∀ {p q : Path}, p ∈ paths → q ∈ paths' → q.components = p.components →
      t.readText q = t.readText p := fun hp hq heq =>
    readText_congr (h'.found _ hq).1 (h.found _ hp).1 heq
  obtain ⟨sources', hload'⟩ : ∃ sources',
      List.Forall₂ (fun p source => loadSource t p = .ok source) paths' sources' := by
    refine exists_forall₂ fun q hq => ?_
    obtain ⟨p, hp, heq⟩ := h'.exists_components_eq h hback hq
    obtain ⟨source, -, hsource⟩ := exists_of_mem_left hload hp
    obtain ⟨-, text, htext, hparse⟩ := loadSource_eq_ok_iff.1 hsource
    refine ⟨⟨q, source.document⟩, loadSource_eq_ok_iff.2 ⟨rfl, text, ?_, hparse⟩⟩
    rw [hread hp hq heq.symm, htext]
  refine ⟨sources', hload', ?_⟩
  rw [List.perm_ext_iff_of_nodup (nodup_map_content hload' h'.apart)
    (nodup_map_content hload h.apart)]
  intro c
  rw [mem_map_content_iff hload', mem_map_content_iff hload]
  constructor
  · rintro ⟨q, hq, hc, htext⟩
    obtain ⟨p, hp, heq⟩ := h'.exists_components_eq h hback hq
    rw [hread hp hq heq.symm] at htext
    exact ⟨p, hp, heq.trans hc, htext⟩
  · rintro ⟨p, hp, hc, htext⟩
    obtain ⟨q, hq, heq⟩ := h.exists_components_eq h' hsame hp
    rw [← hread hp hq heq] at htext
    exact ⟨q, hq, heq.trans hc, htext⟩

/-- **Sources are found by pattern and then in order, each once.** Provided that no search fails,
    sources are found if and only if some pattern matches a file, and else that is the failure. They
    are the matched files, no two of them the same, and one stands before another exactly if a
    pattern matches it before any matches the other, or if the same pattern is the first for both
    and its path is smaller. Patterns that come in another order or more than once find, and load,
    the same in another order. -/
theorem sources_found_in_order {t : FileTree} {root : Path} {patterns : List String}
    (hglob : ∀ pattern ∈ patterns, ∃ found, Finds t root pattern found) :
    ((findSources t root patterns).result = .error (.badSettings (.nothingMatched patterns root)) ↔
      ∀ pattern ∈ patterns, ∀ p, matchesFile t root p pattern = false) ∧
    ((∃ paths, (findSources t root patterns).result = .ok paths) ↔
      ∃ pattern ∈ patterns, ∃ p, matchesFile t root p pattern = true) ∧
    (∀ paths, (findSources t root patterns).result = .ok paths →
      Selected t root patterns paths) ∧
    ∀ patterns', (∀ pattern, pattern ∈ patterns' ↔ pattern ∈ patterns) →
      (∀ paths, (findSources t root patterns).result = .ok paths →
        ∃ paths', (findSources t root patterns').result = .ok paths' ∧
          (paths'.map Path.components).Perm (paths.map Path.components)) ∧
      ∀ sources, (loadSources t root patterns).result = .ok sources →
        ∃ sources', (loadSources t root patterns').result = .ok sources' ∧
          (sources'.map content).Perm (sources.map content) := by
  obtain ⟨paths, hordered, hresult⟩ := findSources_cases hglob
  have hempty := hordered.eq_nil_iff
  simp only [findsFile_matching] at hempty
  simp only [result_loadSources_eq_ok_iff]
  by_cases hpaths : paths = []
  · rw [if_pos (List.isEmpty_iff.2 hpaths)] at hresult
    have hnone := hempty.1 hpaths
    rw [hresult]
    refine ⟨iff_of_true rfl hnone, iff_of_false (by simp) ?_, by simp, by simp⟩
    rintro ⟨pattern, hpattern, p, hmatch⟩
    rw [hnone pattern hpattern p] at hmatch
    exact absurd hmatch Bool.false_ne_true
  · have hsome : ∃ pattern ∈ patterns, ∃ p, matchesFile t root p pattern = true := by
      by_contra hnone
      refine hpaths (hempty.2 fun pattern hpattern p => Bool.eq_false_iff.2 fun hmatch => ?_)
      exact hnone ⟨pattern, hpattern, p, hmatch⟩
    rw [if_neg (by rwa [List.isEmpty_iff])] at hresult
    rw [hresult]
    refine ⟨iff_of_false (by simp) (mt hempty.2 hpaths), iff_of_true ⟨paths, rfl⟩ hsome, ?_, ?_⟩
    · rintro _ ⟨⟩
      exact hordered.selected hglob
    · intro patterns' hsame
      obtain ⟨paths', hordered', hresult'⟩ := findSources_cases fun pattern hpattern =>
        hglob pattern ((hsame pattern).1 hpattern)
      have hperm := hordered.map_components_perm hordered' hsame
      have hpaths' : paths' ≠ [] := by
        rintro rfl
        exact hpaths (List.map_eq_nil_iff.1 hperm.symm.eq_nil)
      rw [if_neg (by rwa [List.isEmpty_iff])] at hresult'
      constructor
      · rintro _ ⟨⟩
        exact ⟨paths', hresult', hperm⟩
      · rintro sources ⟨_, ⟨⟩, hload⟩
        obtain ⟨sources', hload', hloaded⟩ := hordered.exists_loaded_perm hordered' hsame hload
        exact ⟨sources', ⟨paths', hresult', hload'⟩, hloaded⟩

/-- Two sources with nothing in them. -/
def twoSources : FileTree := ⟨[], [(["a"], .file "{}".toUTF8), (["b"], .file "{}".toUTF8)]⟩

theorem finds_twoSources_b : Finds twoSources ⟨"."⟩ "b" [⟨"b"⟩] :=
  ⟨⟨false, [.name [.char '.'], .name [.char 'b']], false⟩, by decide +kernel, by decide +kernel⟩

theorem finds_twoSources_all : Finds twoSources ⟨"."⟩ "*" [⟨"a"⟩, ⟨"b"⟩] := by
  refine ⟨⟨false, [.name [.char '.'], .name [.anySequence]], false⟩, by decide +kernel, ?_⟩
  -- the entries are in order already, so sorting them leaves them as they are
  have hsorted : List.Pairwise (fun a b : Location × Node => decide ¬ b.1 < a.1)
      [(["a"], .file "{}".toUTF8), (["b"], .file "{}".toUTF8)] := by
    decide +kernel
  have hbelow : twoSources.below [] = [(["a"], .file "{}".toUTF8), (["b"], .file "{}".toUTF8)] :=
    List.mergeSort_of_pairwise hsorted
  have hhere : Glob.childPath ⟨"."⟩ "." = ⟨"."⟩ := by decide +kernel
  have hroot : Glob.directoryAt? twoSources ⟨"."⟩ = some [] := by decide +kernel
  have hlisted : Glob.ensureListed twoSources ⟨"."⟩ = .ok () := by decide +kernel
  have hnames : Glob.childPath ⟨"."⟩ "a" = ⟨"a"⟩ ∧ Glob.childPath ⟨"."⟩ "b" = ⟨"b"⟩ := by
    decide +kernel
  have hspells : Glob.spells [.anySequence] ['a'] = true ∧
      Glob.spells [.anySequence] ['b'] = true := by
    decide +kernel
  simp [Glob.Pattern.search, Glob.search, Glob.Step.literalChars?, Glob.dotEntries,
    FileTree.children, hbelow, hhere, hroot, hlisted, hnames, hspells, bind_eq_ok_iff]

theorem twoSources_found_in_order :
    (∀ pattern ∈ ["b", "*"], ∃ found, Finds twoSources ⟨"."⟩ pattern found) ∧
      (findSources twoSources ⟨"."⟩ ["b", "*"]).result = .ok [⟨"b"⟩, ⟨"a"⟩] ∧
      Selected twoSources ⟨"."⟩ ["b", "*"] [⟨"b"⟩, ⟨"a"⟩] ∧
      ∃ sources, (loadSources twoSources ⟨"."⟩ ["b", "*"]).result = .ok sources ∧
        ∃ sources', (loadSources twoSources ⟨"."⟩ ["*", "b", "*"]).result = .ok sources' ∧
          (sources'.map content).Perm (sources.map content) := by
  have hglob : ∀ pattern ∈ ["b", "*"], ∃ found, Finds twoSources ⟨"."⟩ pattern found := by
    simp only [List.forall_mem_cons, List.not_mem_nil, false_imp_iff, implies_true, and_true]
    exact ⟨⟨_, finds_twoSources_b⟩, _, finds_twoSources_all⟩
  have hresult : (findSources twoSources ⟨"."⟩ ["b", "*"]).result = .ok [⟨"b"⟩, ⟨"a"⟩] := by
    obtain ⟨_, hparse, hsearch⟩ := finds_twoSources_b
    obtain ⟨_, hparse', hsearch'⟩ := finds_twoSources_all
    refine (result_findSources (.cons (filesMatching_eq_ok hparse hsearch ?_ ?_)
      (.cons (filesMatching_eq_ok hparse' hsearch' ?_ ?_) .nil))).trans ?_
    all_goals decide +kernel
  obtain ⟨sources, hload⟩ : ∃ sources,
      (loadSources twoSources ⟨"."⟩ ["b", "*"]).result = .ok sources := by
    obtain ⟨sources, hsources⟩ := exists_eq_ok_of_isOk
      (x := [(⟨"b"⟩ : Path), ⟨"a"⟩].mapM (loadSource twoSources)) (by decide +kernel)
    exact ⟨sources, result_loadSources_eq_ok_iff.2 ⟨_, hresult, mapM_eq_ok_iff.1 hsources⟩⟩
  obtain ⟨-, -, hselected, hother⟩ := sources_found_in_order hglob
  refine ⟨hglob, hresult, hselected _ hresult, _, hload, ?_⟩
  exact (hother ["*", "b", "*"] (by simp [or_comm])).2 _ hload

end Compilation

end GoBindings
