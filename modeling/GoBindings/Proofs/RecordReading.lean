import GoBindings.Proofs.JsonTexts
import GoBindings.Proofs.Outcome
import GoBindings.Schema.Reading

set_option autoImplicit false

/-! # What is read from the members of an object

A record is read from an object member by member. `Layout.Takes` says what one member does to the
record, whatever stands around it, and `Layout.readObject_eq_ok_iff` puts the members together: the
object is read exactly if every member is taken, no field is filled twice and no required field is
left out. -/

namespace GoBindings.Schema

namespace Layout

variable {ρ : Type}

/-- What a member does: nothing, if no field has its key, or it fills the field with that name. -/
inductive Takes (l : Layout ρ) (depth : Nat) : Json.Member → Option (String × (ρ → ρ)) → Prop
  | skip {key : String} {t : Json.Tree} (hkey : ∀ f ∈ l.fields, f.accepts key = false)
      (ht : t.isIntact = true) : Takes l depth (some key, t) none
  | fill {key : String} {t : Json.Tree} {f : Field ρ} {put : ρ → ρ}
      (hkey : l.fields.find? (fun f => f.accepts key) = some f)
      (hput : f.read depth t = .ok put) : Takes l depth (some key, t) (some (f.name, put))

/-- The fields that get filled. -/
def fills (taken : List (Option (String × (ρ → ρ)))) : List (String × (ρ → ρ)) :=
  taken.filterMap id

def fillNames (taken : List (Option (String × (ρ → ρ)))) : List String :=
  (fills taken).map Prod.fst

def fillAll (taken : List (Option (String × (ρ → ρ)))) (r : ρ) : ρ :=
  (fills taken).foldl (fun r fill => fill.2 r) r

theorem fillNames_some_cons (name : String) (put : ρ → ρ)
    (taken : List (Option (String × (ρ → ρ)))) :
    fillNames (some (name, put) :: taken) = name :: fillNames taken := rfl

theorem exists_of_takes {l : Layout ρ} {depth : Nat} {m : Json.Member} {name : String}
    {put : ρ → ρ} (h : l.Takes depth m (some (name, put))) :
    ∃ f ∈ l.fields, f.name = name ∧ f.read depth m.2 = .ok put := by
  cases h with
  | fill hkey hput => exact ⟨_, List.mem_of_find?_eq_some hkey, rfl, hput⟩

/-- One member: what it does depends on its key and its value alone, and it must not fill a field
    that is filled already. -/
theorem readMembers_cons_eq_ok_iff {l : Layout ρ} {depth : Nat} {seen : List String} {r : ρ}
    {m : Json.Member} {members : List Json.Member} {x : List String × ρ} :
    l.readMembers depth seen r (m :: members) = .ok x ↔
      (l.Takes depth m none ∧ l.readMembers depth seen r members = .ok x) ∨
      ∃ name put, l.Takes depth m (some (name, put)) ∧ name ∉ seen ∧
        l.readMembers depth (name :: seen) (put r) members = .ok x := by
  obtain ⟨_ | key, t⟩ := m
  · -- An unreadable key is no key.
    constructor
    · rintro ⟨⟩
    · rintro (⟨⟨⟩, -⟩ | ⟨_, _, ⟨⟩, -⟩)
  rw [readMembers]
  cases hkey : l.fields.find? fun f => f.accepts key with
  | none =>
    have hnone : ∀ f ∈ l.fields, f.accepts key = false := by
      simpa only [List.find?_eq_none, Bool.not_eq_true] using hkey
    constructor
    · intro h
      by_cases hintact : t.isIntact = true
      · exact Or.inl ⟨.skip hnone hintact, (if_pos hintact).symm.trans h⟩
      · exact absurd ((if_neg hintact).symm.trans h) nofun
    · rintro (⟨⟨_, hintact⟩, h⟩ | ⟨name, put, htakes, -⟩)
      · exact (if_pos hintact).trans h
      · cases htakes with
        | fill hfound _ => exact absurd (hkey.symm.trans hfound) nofun
  | some f =>
    constructor
    · intro h
      by_cases hseen : seen.contains f.name = true
      · exact absurd ((if_pos hseen).symm.trans h) nofun
      · obtain ⟨put, hput, h⟩ := Outcome.bind_eq_ok_iff.1 ((if_neg hseen).symm.trans h)
        rw [List.contains_iff_mem] at hseen
        exact Or.inr ⟨f.name, put, .fill hkey hput, hseen, h⟩
    · rintro (⟨⟨hnone, _⟩, -⟩ | ⟨name, put, htakes, hseen, h⟩)
      · have haccepts := List.find?_some hkey
        rw [hnone f (List.mem_of_find?_eq_some hkey)] at haccepts
        exact absurd haccepts Bool.false_ne_true
      · cases htakes with
        | fill hfound hput =>
          cases hkey.symm.trans hfound
          rw [← List.contains_iff_mem] at hseen
          exact (if_neg hseen).trans (Outcome.bind_eq_ok_iff.2 ⟨put, hput, h⟩)

theorem readMembers_eq_ok_iff {l : Layout ρ} {depth : Nat} {seen seen' : List String} {r r' : ρ}
    {members : List Json.Member} :
    l.readMembers depth seen r members = .ok (seen', r') ↔
      ∃ taken, List.Forall₂ (l.Takes depth) members taken ∧
        (fillNames taken).Nodup ∧ (fillNames taken).Disjoint seen ∧
          seen' = (fillNames taken).reverse ++ seen ∧ r' = fillAll taken r := by
  -- A fill is seen by all later members, so the induction is for any fields seen before.
  induction members generalizing seen r with
  | nil =>
    constructor
    · rintro ⟨⟩
      exact ⟨[], .nil, .nil, List.disjoint_nil_left _, rfl, rfl⟩
    · rintro ⟨_, ⟨⟩, -, -, rfl, rfl⟩
      rfl
  | cons m members ih =>
    rw [readMembers_cons_eq_ok_iff]
    constructor
    · rintro (⟨htakes, h⟩ | ⟨name, put, htakes, hseen, h⟩)
      · obtain ⟨taken, htaken, hrest⟩ := ih.1 h
        exact ⟨none :: taken, .cons htakes htaken, hrest⟩
      · obtain ⟨taken, htaken, hnodup, hfresh, hnames, hrecord⟩ := ih.1 h
        rw [List.disjoint_cons_right] at hfresh
        refine ⟨some (name, put) :: taken, .cons htakes htaken, ?_, ?_, ?_, hrecord⟩
        · exact List.nodup_cons.2 ⟨hfresh.1, hnodup⟩
        · exact List.disjoint_cons_left.2 ⟨hseen, hfresh.2⟩
        · rw [hnames, fillNames_some_cons, List.reverse_cons, List.append_assoc,
            List.singleton_append]
    · rintro ⟨_, hall, hrest⟩
      obtain ⟨_ | ⟨name, put⟩, taken, htakes, htaken, rfl⟩ := List.forall₂_cons_left_iff.1 hall
      · exact Or.inl ⟨htakes, ih.2 ⟨taken, htaken, hrest⟩⟩
      · obtain ⟨hnodup, hfresh, hnames, hrecord⟩ := hrest
        rw [fillNames_some_cons] at hnodup hfresh hnames
        obtain ⟨hseen, hfresh⟩ := List.disjoint_cons_left.1 hfresh
        obtain ⟨hnew, hnodup⟩ := List.nodup_cons.1 hnodup
        refine Or.inr ⟨name, put, htakes, hseen, ih.2 ⟨taken, htaken, hnodup, ?_, ?_, hrecord⟩⟩
        · exact List.disjoint_cons_right.2 ⟨hnew, hfresh⟩
        · rw [hnames, List.reverse_cons, List.append_assoc, List.singleton_append]

theorem checkSeen_eq_ok_iff {l : Layout ρ} {seen : List String} :
    l.checkSeen seen = .ok () ↔ ∀ f ∈ l.fields, f.required = true → f.name ∈ seen := by
  have hnone : l.checkSeen seen = .ok () ↔
      (l.fields.find? fun f => f.required && !seen.contains f.name) = none := by
    rw [checkSeen]
    cases l.fields.find? fun f => f.required && !seen.contains f.name with
    | none => exact ⟨fun _ => rfl, fun _ => rfl⟩
    | some f => exact ⟨nofun, nofun⟩
  rw [hnone, List.find?_eq_none]
  refine forall₂_congr fun f _ => ?_
  simp

theorem readObject_eq_ok_iff {l : Layout ρ} {depth : Nat} {members : List Json.Member} {r : ρ} :
    l.readObject depth members = .ok r ↔
      ∃ taken, List.Forall₂ (l.Takes depth) members taken ∧ (fillNames taken).Nodup ∧
        (∀ f ∈ l.fields, f.required = true → f.name ∈ fillNames taken) ∧
          r = fillAll taken l.blank := by
  rw [readObject, Outcome.bind_eq_ok_iff]
  constructor
  · rintro ⟨⟨seen, r'⟩, hmembers, h⟩
    obtain ⟨hcheck, hr⟩ := Outcome.check_bind_eq_ok_iff.1 h
    obtain ⟨taken, htaken, hnodup, -, rfl, rfl⟩ := readMembers_eq_ok_iff.1 hmembers
    refine ⟨taken, htaken, hnodup, fun f hf hrequired => ?_, (Outcome.pure_eq_ok_iff.1 hr).symm⟩
    simpa using checkSeen_eq_ok_iff.1 hcheck f hf hrequired
  · rintro ⟨taken, htaken, hnodup, hrequired, rfl⟩
    refine ⟨((fillNames taken).reverse, fillAll taken l.blank), ?_, ?_⟩
    · exact readMembers_eq_ok_iff.2
        ⟨taken, htaken, hnodup, List.disjoint_nil_right _, (List.append_nil _).symm, rfl⟩
    · refine Outcome.check_bind_eq_ok_iff.2 ⟨checkSeen_eq_ok_iff.2 fun f hf h => ?_, rfl⟩
      simpa using hrequired f hf h

/-- Lists and objects use up a level. -/
theorem exists_depth_of_read_object {l : Layout ρ} {depth : Nat} {members : List Json.Member}
    {r : ρ} (h : l.read depth (.object members) = .ok r) :
    ∃ inner, depth = inner + 1 ∧ l.readObject inner members = .ok r := by
  cases depth with
  | zero => cases h
  | succ inner => exact ⟨inner, rfl, h⟩

theorem exists_depth_of_read_list {l : Layout ρ} {depth : Nat} {items : List Json.Tree}
    {r : ρ} (h : l.read depth (.list items) = .ok r) :
    ∃ inner, depth = inner + 1 ∧ l.readItems inner 0 l.blank l.fields items = .ok r := by
  cases depth with
  | zero => cases h
  | succ inner => exact ⟨inner, rfl, h⟩

end Layout

/-- A text is accepted exactly if it writes a tree that can be read. -/
theorem Document.parse_eq_ok_iff {text : String} {d : Document} :
    Document.parse text = .ok d ↔ ∃ tree, Json.Writes (withoutLineBreaks text.toList) tree ∧
      Document.layout.read maxDepth tree = .ok d := by
  rw [Document.parse, Outcome.bind_eq_ok_iff]
  obtain ⟨⟨tree, whole⟩, hread⟩ : ∃ x, Json.read (withoutLineBreaks text.toList) = x := ⟨_, rfl⟩
  rw [hread]
  constructor
  · rintro ⟨d', hd', h⟩
    cases whole with
    | false => cases h
    | true =>
      cases h
      exact ⟨tree, Json.read_eq_iff.1 hread, hd'⟩
  · rintro ⟨tree', hwrites, hd⟩
    have hsame := hread.symm.trans (Json.read_eq_iff.2 hwrites)
    obtain ⟨rfl, rfl⟩ := Prod.mk.inj hsame
    exact ⟨d, hd, rfl⟩

end GoBindings.Schema
