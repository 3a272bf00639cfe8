import GoBindings.Proofs.Identifiers
import GoBindings.Proofs.RecordReading
import Mathlib.Data.List.Pairwise
import Mathlib.Data.List.Perm.Basic
import Mathlib.Logic.Relation

set_option autoImplicit false

/-! # Edits that leave a description the same

The order of an object's members, the case of a key's first letter and members with keys nobody asks
for carry no meaning. `Edit` says so for trees: it is one such change, at any place where a record
stands, and `Shape` says where those places are. A reading keeps to a shape if it gives the same
result after every edit (`Respects`); layouts do, as long as their fields do and putting values into
different fields commutes (`Layout.Fits`). -/

namespace GoBindings.Schema

/-! ## Shapes and edits -/

/-- Where records stand in a value. -/
inductive Shape
  /-- Nowhere: a text, a flag, or a value of any kind. -/
  | plain
  | listOf (item : Shape)
  /-- The value is a record, with these fields in order. -/
  | record (fields : List (String × Shape))

namespace Shape

def property : Shape :=
  .record [("name", .plain), ("type", .plain), ("doc", .plain), ("optional", .plain),
    ("defaultValue", .plain)]

def result : Shape :=
  .record [("type", .plain), ("doc", .plain)]

def method : Shape :=
  .record [("name", .plain), ("doc", .plain), ("params", .listOf property), ("return", result)]

def constructor : Shape :=
  .record [("params", .listOf property)]

def remoteClass : Shape :=
  .record [("name", .plain), ("doc", .plain), ("extends", .plain),
    ("properties", .listOf property), ("methods", .listOf method), ("events", .plain),
    ("constructor", constructor)]

def complexType : Shape :=
  .record [("typeFormat", .plain), ("name", .plain), ("doc", .plain), ("values", .plain),
    ("properties", .listOf property), ("extends", .plain)]

def document : Shape :=
  .record [("remoteClasses", .listOf remoteClass), ("complexTypes", .listOf complexType)]

end Shape

/-- A name with its first letter in lower and in upper case. -/
def spellings (name : String) : List (List Char) :=
  match name.toList with
  | [] => []
  | c :: cs => [c.toLower :: cs, c.toUpper :: cs]

def Spells (key name : String) : Prop :=
  key.toList ∈ spellings name

instance (key name : String) : Decidable (Spells key name) :=
  inferInstanceAs (Decidable (key.toList ∈ spellings name))

/-- One edit. As members may be reordered, the other edits of an object are those of its first
    member. -/
inductive Edit : Shape → Json.Tree → Json.Tree → Prop
  | reorder {fields : List (String × Shape)} {members members' : List Json.Member}
      (h : members.Perm members') : Edit (.record fields) (.object members) (.object members')
  | respell {fields : List (String × Shape)} {name key key' : String} {t : Json.Tree}
      {members : List Json.Member} (hname : name ∈ fields.map Prod.fst) (hkey : Spells key name)
      (hkey' : Spells key' name) :
      Edit (.record fields) (.object ((some key, t) :: members))
        (.object ((some key', t) :: members))
  /-- Of a value that keeps to the notation, under a key that no field has. An unreadable key is no
      key: it breaks the notation. -/
  | insert {fields : List (String × Shape)} {key : String} {t : Json.Tree}
      {members : List Json.Member} (hkey : ∀ name ∈ fields.map Prod.fst, ¬ Spells key name)
      (ht : t.isIntact = true) :
      Edit (.record fields) (.object members) (.object ((some key, t) :: members))
  | remove {fields : List (String × Shape)} {key : String} {t : Json.Tree}
      {members : List Json.Member} (hkey : ∀ name ∈ fields.map Prod.fst, ¬ Spells key name) :
      Edit (.record fields) (.object ((some key, t) :: members)) (.object members)
  /-- Inside a field. -/
  | field {fields : List (String × Shape)} {name key : String} {shape : Shape}
      {t t' : Json.Tree} {members : List Json.Member} (hfield : (name, shape) ∈ fields)
      (hkey : Spells key name) (h : Edit shape t t') :
      Edit (.record fields) (.object ((some key, t) :: members))
        (.object ((some key, t') :: members))
  /-- Inside a field of a record that is written as a list. -/
  | position {fields : List (String × Shape)} {name : String} {shape : Shape}
      {before after : List Json.Tree} {t t' : Json.Tree}
      (hfield : fields[before.length]? = some (name, shape)) (h : Edit shape t t') :
      Edit (.record fields) (.list (before ++ t :: after)) (.list (before ++ t' :: after))
  | item {shape : Shape} {before after : List Json.Tree} {t t' : Json.Tree}
      (h : Edit shape t t') :
      Edit (.listOf shape) (.list (before ++ t :: after)) (.list (before ++ t' :: after))

/-- The trees that any number of edits lead to. -/
abbrev Edits (shape : Shape) : Json.Tree → Json.Tree → Prop :=
  Relation.ReflTransGen (Edit shape)

/-- A member may be inserted anywhere. -/
theorem Edits.insert {fields : List (String × Shape)} {key : String} {t : Json.Tree}
    {before after : List Json.Member} (hkey : ∀ name ∈ fields.map Prod.fst, ¬ Spells key name)
    (ht : t.isIntact = true) :
    Edits (.record fields) (.object (before ++ after))
      (.object (before ++ (some key, t) :: after)) :=
  (Relation.ReflTransGen.single (.insert hkey ht)).tail (.reorder List.perm_middle.symm)

theorem Edits.item {shape : Shape} {before after : List Json.Tree} {t t' : Json.Tree}
    (h : Edits shape t t') :
    Edits (.listOf shape) (.list (before ++ t :: after)) (.list (before ++ t' :: after)) := by
  induction h with
  | refl => exact .refl
  | tail _ hedit ih => exact ih.tail (.item hedit)

theorem Edits.field {fields : List (String × Shape)} {name key : String} {shape : Shape}
    {t t' : Json.Tree} {members : List Json.Member} (hfield : (name, shape) ∈ fields)
    (hkey : Spells key name) (h : Edits shape t t') :
    Edits (.record fields) (.object ((some key, t) :: members))
      (.object ((some key, t') :: members)) := by
  induction h with
  | refl => exact .refl
  | tail _ hedit ih => exact ih.tail (.field hfield hkey hedit)

/-- What can be read can still be read after an edit, with the same result. -/
def Respects {α : Type} (shape : Shape) (read : Reading α) : Prop :=
  ∀ t t', Edit shape t t' → ∀ depth a, read depth t = .ok a → read depth t' = .ok a

/-! ## Spellings -/

def startsLower (name : String) : Bool :=
  name.toList.head?.any Char.isLower

theorem exists_of_startsLower {name : String} (h : startsLower name = true) :
    ∃ c cs, name.toList = c :: cs ∧ c.isLower = true := by
  unfold startsLower at h
  cases hname : name.toList with
  | nil =>
    rw [hname] at h
    exact absurd h Bool.false_ne_true
  | cons c cs =>
    rw [hname] at h
    exact ⟨c, cs, rfl, h⟩

theorem toUpper_of_isLower {c : Char} (h : c.isLower = true) :
    Text.upperChar c = [c.toUpper] ∧ c.toLower = c ∧ c.toUpper.toLower = c := by
  have halpha : c.isAlpha = true := Bool.or_eq_true_iff.2 (Or.inr h)
  have hpart := Identifier.isPart_of_isAlpha halpha
  exact ⟨(Identifier.upperChar_of_isPart hpart).1, Identifier.of_isPart (P := fun c =>
    c.isLower = true → c.toLower = c ∧ c.toUpper.toLower = c) (by decide) hpart h⟩

theorem Field.accepts_iff {ρ : Type} {f : Field ρ} (h : startsLower f.name = true) {key : String} :
    f.accepts key = true ↔ Spells key f.name := by
  obtain ⟨c, cs, hname, hc⟩ := exists_of_startsLower h
  obtain ⟨hupper, hlower, -⟩ := toUpper_of_isLower hc
  have hfirst : Text.upperFirst f.name.toList = c.toUpper :: cs := by
    rw [hname, Text.upperFirst, hupper]
    rfl
  have hspellings : spellings f.name = [c :: cs, c.toUpper :: cs] := by
    simp only [spellings, hname, hlower]
  rw [accepts, Bool.or_eq_true, beq_iff_eq, beq_iff_eq, hfirst, ← String.toList_inj, hname, Spells,
    hspellings, List.mem_pair]

/-- A key spells one name at most. -/
theorem Spells.unique {key name name' : String} (h : Spells key name) (h' : Spells key name')
    (hname : startsLower name = true) (hname' : startsLower name' = true) : name = name' := by
  -- The name is the key with its first letter in lower case.
  have hlower : ∀ {n : String}, Spells key n → startsLower n = true →
      ∃ k ks, key.toList = k :: ks ∧ n.toList = k.toLower :: ks := by
    intro n hkey hstarts
    obtain ⟨c, cs, hn, hc⟩ := exists_of_startsLower hstarts
    obtain ⟨-, hsame, hback⟩ := toUpper_of_isLower hc
    simp only [Spells, spellings, hn, List.mem_pair] at hkey
    rcases hkey with hkey | hkey
    · exact ⟨_, _, hkey, by rw [hn, hsame, hsame]⟩
    · exact ⟨_, _, hkey, by rw [hn, hback]⟩
  obtain ⟨k, ks, hkey, hn⟩ := hlower h hname
  obtain ⟨k', ks', hkey', hn'⟩ := hlower h' hname'
  obtain ⟨rfl, rfl⟩ := List.cons.inj (hkey.symm.trans hkey')
  exact String.toList_inj.1 (hn.trans hn'.symm)

/-! ## Readings of values -/

namespace Respects

variable {α : Type} {shape : Shape} {read : Reading α}

theorem plain (read : Reading α) : Respects .plain read := by
  rintro t t' ⟨⟩

/-- No edit makes a value null, or changes null. -/
theorem optional (h : Respects shape read) : Respects shape (Reading.optional read) := by
  intro t t' hedit depth a ha
  have hstep : ∀ {t : Json.Tree}, t ≠ .null →
      Reading.optional read depth t = some <$> read depth t := by
    intro t ht
    cases t with
    | null => exact absurd rfl ht
    | _ => rfl
  have hne : t ≠ .null ∧ t' ≠ .null := by
    cases hedit <;> exact ⟨nofun, nofun⟩
  rw [hstep hne.1, Outcome.map_eq_ok_iff] at ha
  obtain ⟨v, hv, rfl⟩ := ha
  rw [hstep hne.2, Outcome.map_eq_ok_iff]
  exact ⟨v, h t t' hedit depth v hv, rfl⟩

theorem list (h : Respects shape read) : Respects (.listOf shape) (Reading.list read) := by
  rintro _ _ (_ | _) depth as has
  next before after t t' hedit =>
  cases depth with
  | zero => cases has
  | succ depth =>
    have hmapM : (before ++ t :: after).mapM (read depth) = .ok as := has
    have hall := Outcome.mapM_eq_ok_iff.1 hmapM
    refine Outcome.mapM_eq_ok_iff.2 ?_
    induction before generalizing as with
    | nil =>
      obtain ⟨a, as, ha, hrest, rfl⟩ := List.forall₂_cons_left_iff.1 hall
      exact .cons (h t t' hedit depth a ha) hrest
    | cons u before ih =>
      obtain ⟨a, as, ha, hrest, rfl⟩ := List.forall₂_cons_left_iff.1 hall
      have hmapM := Outcome.mapM_eq_ok_iff.2 hrest
      exact .cons ha (ih as hmapM hmapM hrest)

/-- Edits inside a field's value. -/
theorem put {ρ : Type} (h : Respects shape read) (put : ρ → α → ρ) :
    Respects shape fun depth t => (fun v r => put r v) <$> read depth t := by
  intro t t' hedit depth p hp
  obtain ⟨v, hv, rfl⟩ := Outcome.map_eq_ok_iff.1 hp
  exact Outcome.map_eq_ok_iff.2 ⟨v, h t t' hedit depth v hv, rfl⟩

/-- Any number of edits. -/
theorem edits (h : Respects shape read) {t t' : Json.Tree} (hedits : Edits shape t t')
    {depth : Nat} {a : α} (ha : read depth t = .ok a) : read depth t' = .ok a := by
  induction hedits with
  | refl => exact ha
  | tail _ hedit ih => exact h _ _ hedit depth a ih

end Respects

/-! ## Readings of records -/

/-- Whichever of the two is filled first, the record is the same. -/
def Field.Commute {ρ : Type} (f g : Field ρ) : Prop :=
  ∀ depth t u p q, f.read depth t = .ok p → g.read depth u = .ok q → ∀ r, p (q r) = q (p r)

theorem Field.commute_of_put {ρ α β : Type} {f g : Field ρ} {read : Reading α}
    {read' : Reading β} {put : ρ → α → ρ} {put' : ρ → β → ρ}
    (hf : f.read = fun depth t => (fun v r => put r v) <$> read depth t)
    (hg : g.read = fun depth t => (fun v r => put' r v) <$> read' depth t)
    (h : ∀ r v w, put (put' r w) v = put' (put r v) w) : f.Commute g := by
  intro depth t u p q hp hq r
  rw [hf] at hp
  rw [hg] at hq
  obtain ⟨v, -, rfl⟩ := Outcome.map_eq_ok_iff.1 hp
  obtain ⟨w, -, rfl⟩ := Outcome.map_eq_ok_iff.1 hq
  exact h r v w

instance {ρ : Type} : Std.Symm (Field.Commute (ρ := ρ)) where
  symm _ _ h depth t u p q hp hq r := (h depth u t q p hq hp r).symm

namespace Layout

variable {ρ : Type}

/-- The layout has these fields. -/
structure Fits (l : Layout ρ) (fields : List (String × Shape)) : Prop where
  respects :
    List.Forall₂ (fun f field => f.name = field.1 ∧ Respects field.2 f.read) l.fields fields
  startsLower : ∀ f ∈ l.fields, startsLower f.name = true
  nodup : (l.fields.map Field.name).Nodup
  commute : l.fields.Pairwise Field.Commute

variable {l : Layout ρ} {fields : List (String × Shape)} {depth : Nat}

theorem Fits.names_eq (h : l.Fits fields) : l.fields.map Field.name = fields.map Prod.fst := by
  rw [← List.forall₂_eq_eq_eq, List.forall₂_map_left_iff, List.forall₂_map_right_iff]
  exact h.respects.imp fun _ _ hfield => hfield.1

theorem Fits.find?_eq_some (h : l.Fits fields) {f : Field ρ} (hf : f ∈ l.fields) {key : String}
    (hkey : Spells key f.name) : (l.fields.find? fun g => g.accepts key) = some f := by
  cases hfind : l.fields.find? fun g => g.accepts key with
  | none =>
    have hnone := List.find?_eq_none.1 hfind f hf
    exact absurd ((Field.accepts_iff (h.startsLower f hf)).2 hkey) hnone
  | some g =>
    have hg := List.mem_of_find?_eq_some hfind
    have haccepts : g.accepts key = true := by simpa using List.find?_some hfind
    have hspells := (Field.accepts_iff (h.startsLower g hg)).1 haccepts
    have hname := hspells.unique hkey (h.startsLower g hg) (h.startsLower f hf)
    rw [List.inj_on_of_nodup_map h.nodup hg hf hname]

theorem Fits.accepts_eq_false (h : l.Fits fields) {key : String}
    (hkey : ∀ name ∈ fields.map Prod.fst, ¬ Spells key name) :
    ∀ f ∈ l.fields, f.accepts key = false := by
  intro f hf
  rw [← h.names_eq] at hkey
  rw [← Bool.not_eq_true, Field.accepts_iff (h.startsLower f hf)]
  exact hkey f.name (List.mem_map_of_mem hf)

/-- A member whose key spells a field's name fills that field. -/
theorem Fits.takes_iff (h : l.Fits fields) {f : Field ρ} (hf : f ∈ l.fields) {key : String}
    (hkey : Spells key f.name) {t : Json.Tree} {take : Option (String × (ρ → ρ))} :
    l.Takes depth (some key, t) take ↔
      ∃ put, take = some (f.name, put) ∧ f.read depth t = .ok put := by
  have hfind := h.find?_eq_some hf hkey
  constructor
  · intro htakes
    cases htakes with
    | skip hnone _ =>
      exact absurd ((Field.accepts_iff (h.startsLower f hf)).2 hkey)
        (by rw [hnone f hf]; exact Bool.false_ne_true)
    | fill hfound hput =>
      cases hfind.symm.trans hfound
      exact ⟨_, rfl, hput⟩
  · rintro ⟨put, rfl, hput⟩
    exact .fill hfind hput

theorem Fits.eq_none_of_takes (h : l.Fits fields) {key : String}
    (hkey : ∀ name ∈ fields.map Prod.fst, ¬ Spells key name) {t : Json.Tree}
    {take : Option (String × (ρ → ρ))} (htakes : l.Takes depth (some key, t) take) :
    take = none := by
  cases htakes with
  | skip _ _ => rfl
  | fill hfound _ =>
    have haccepts := List.find?_some hfound
    rw [h.accepts_eq_false hkey _ (List.mem_of_find?_eq_some hfound)] at haccepts
    exact absurd haccepts Bool.false_ne_true

/-- The order in which fields are filled does not matter. -/
theorem Fits.fillAll_eq_of_perm (h : l.Fits fields) {members : List Json.Member}
    {taken taken' : List (Option (String × (ρ → ρ)))}
    (htaken : List.Forall₂ (l.Takes depth) members taken) (hnodup : (fillNames taken).Nodup)
    (hperm : taken.Perm taken') (r : ρ) : fillAll taken r = fillAll taken' r := by
  have hfill : ∀ fill ∈ fills taken, ∃ f ∈ l.fields, f.name = fill.1 ∧
      ∃ t, f.read depth t = .ok fill.2 := by
    intro fill hmem
    obtain ⟨_, hsome, rfl⟩ := List.mem_filterMap.1 hmem
    obtain ⟨m, -, htakes⟩ := Outcome.exists_of_mem_right htaken hsome
    obtain ⟨f, hf, hname, hread⟩ := exists_of_takes htakes
    exact ⟨f, hf, hname, m.2, hread⟩
  refine (hperm.filterMap id).foldl_eq' (fun x hx y hy r => ?_) r
  by_cases hxy : x.1 = y.1
  · -- No field is filled twice.
    rw [List.inj_on_of_nodup_map hnodup hx hy hxy]
  · obtain ⟨f, hf, hfx, t, hread⟩ := hfill x hx
    obtain ⟨g, hg, hgy, u, hread'⟩ := hfill y hy
    have hne : f ≠ g := fun heq => hxy (by rw [← hfx, ← hgy, heq])
    exact (h.commute.forall hf hg hne depth t u x.2 y.2 hread hread' r).symm

theorem Fits.readObject_perm (h : l.Fits fields) {members members' : List Json.Member}
    (hperm : members.Perm members') {r : ρ} (hr : l.readObject depth members = .ok r) :
    l.readObject depth members' = .ok r := by
  obtain ⟨taken, htaken, hnodup, hrequired, rfl⟩ := readObject_eq_ok_iff.1 hr
  obtain ⟨taken', htaken', hperm'⟩ := List.perm_comp_forall₂ hperm.symm htaken
  have hnames : (fillNames taken').Perm (fillNames taken) := (hperm'.filterMap id).map Prod.fst
  refine readObject_eq_ok_iff.2 ⟨taken', htaken', hnames.nodup_iff.2 hnodup, ?_, ?_⟩
  · exact fun f hf hneeded => hnames.mem_iff.2 (hrequired f hf hneeded)
  · exact h.fillAll_eq_of_perm htaken hnodup hperm'.symm l.blank

/-- A first member may give way to one that does the same. -/
theorem readObject_replace {m m' : Json.Member} {members : List Json.Member} {r : ρ}
    (h : ∀ take, l.Takes depth m take → l.Takes depth m' take)
    (hr : l.readObject depth (m :: members) = .ok r) :
    l.readObject depth (m' :: members) = .ok r := by
  obtain ⟨_, hall, hrest⟩ := readObject_eq_ok_iff.1 hr
  obtain ⟨take, taken, htakes, htaken, rfl⟩ := List.forall₂_cons_left_iff.1 hall
  exact readObject_eq_ok_iff.2 ⟨take :: taken, .cons (h take htakes) htaken, hrest⟩

/-- A member that fills nothing may come and go. -/
theorem readObject_skip {m : Json.Member} {members : List Json.Member} {r : ρ}
    (h : l.Takes depth m none) :
    l.readObject depth members = .ok r → l.readObject depth (m :: members) = .ok r := by
  intro hr
  obtain ⟨taken, htaken, hrest⟩ := readObject_eq_ok_iff.1 hr
  exact readObject_eq_ok_iff.2 ⟨none :: taken, .cons h htaken, hrest⟩

theorem Fits.readObject_remove (h : l.Fits fields) {key : String} {t : Json.Tree}
    {members : List Json.Member} (hkey : ∀ name ∈ fields.map Prod.fst, ¬ Spells key name) {r : ρ}
    (hr : l.readObject depth ((some key, t) :: members) = .ok r) :
    l.readObject depth members = .ok r := by
  obtain ⟨_, hall, hrest⟩ := readObject_eq_ok_iff.1 hr
  obtain ⟨take, taken, htakes, htaken, rfl⟩ := List.forall₂_cons_left_iff.1 hall
  cases h.eq_none_of_takes hkey htakes
  exact readObject_eq_ok_iff.2 ⟨taken, htaken, hrest⟩

theorem readItems_replace {fs : List (Field ρ)} {index : Nat} {r r' : ρ}
    (hfields : List.Forall₂ (fun f field => f.name = field.1 ∧ Respects field.2 f.read) fs fields)
    {before after : List Json.Tree} {t t' : Json.Tree} {name : String} {shape : Shape}
    (hfield : fields[before.length]? = some (name, shape)) (hedit : Edit shape t t')
    (hr : l.readItems depth index r fs (before ++ t :: after) = .ok r') :
    l.readItems depth index r fs (before ++ t' :: after) = .ok r' := by
  -- Fields and items are walked together, down to the item that is edited.
  induction before generalizing fs fields index r with
  | nil =>
    cases hfields with
    | nil => cases hfield
    | cons hhead _ =>
      cases hfield
      obtain ⟨put, hput, hrest⟩ := Outcome.bind_eq_ok_iff.1 hr
      exact Outcome.bind_eq_ok_iff.2 ⟨put, hhead.2 t t' hedit depth put hput, hrest⟩
  | cons u before ih =>
    cases hfields with
    | nil => cases hfield
    | cons _ htail =>
      obtain ⟨put, hput, hrest⟩ := Outcome.bind_eq_ok_iff.1 hr
      exact Outcome.bind_eq_ok_iff.2 ⟨put, hput, ih htail hfield hrest⟩

/-- **One edit**: a layout reads the same record after it. -/
theorem Fits.respects_read (h : l.Fits fields) : Respects (.record fields) l.read := by
  intro t t' hedit depth r hr
  cases hedit with
  | reorder hperm =>
    obtain ⟨depth, rfl, hr⟩ := exists_depth_of_read_object hr
    exact h.readObject_perm hperm hr
  | respell hname hkey hkey' =>
    obtain ⟨depth, rfl, hr⟩ := exists_depth_of_read_object hr
    -- Both keys lead to the field with that name.
    rw [← h.names_eq] at hname
    obtain ⟨f, hf, rfl⟩ := List.mem_map.1 hname
    refine readObject_replace (fun take htakes => ?_) hr
    rwa [h.takes_iff hf hkey', ← h.takes_iff hf hkey]
  | insert hkey ht =>
    obtain ⟨depth, rfl, hr⟩ := exists_depth_of_read_object hr
    exact readObject_skip (.skip (h.accepts_eq_false hkey) ht) hr
  | remove hkey =>
    obtain ⟨depth, rfl, hr⟩ := exists_depth_of_read_object hr
    exact h.readObject_remove hkey hr
  | field hfield hkey hinner =>
    obtain ⟨depth, rfl, hr⟩ := exists_depth_of_read_object hr
    obtain ⟨f, hf, rfl, hrespects⟩ := Outcome.exists_of_mem_right h.respects hfield
    refine readObject_replace (fun take htakes => ?_) hr
    obtain ⟨put, htake, hput⟩ := (h.takes_iff hf hkey).1 htakes
    exact (h.takes_iff hf hkey).2 ⟨put, htake, hrespects _ _ hinner depth put hput⟩
  | position hfield hinner =>
    obtain ⟨depth, rfl, hr⟩ := exists_depth_of_read_list hr
    exact readItems_replace h.respects hfield hinner hr

end Layout

/-! ## The records of a description

Each record is read as its shape says. What is left to check is data: the names, and that no field
writes over another. -/

theorem Property.respects_read : Respects .property Property.layout.read := by
  refine Layout.Fits.respects_read ⟨?_, by decide, by decide, ?_⟩
  · refine .cons ⟨rfl, .plain _⟩ ?_
    refine .cons ⟨rfl, .plain _⟩ ?_
    refine .cons ⟨rfl, .plain _⟩ ?_
    refine .cons ⟨rfl, .plain _⟩ ?_
    refine .cons ⟨rfl, .plain _⟩ ?_
    exact .nil
  · -- Any two fields have places of their own in the record.
    simp only [Property.layout, List.pairwise_cons, List.forall_mem_cons, List.not_mem_nil,
      IsEmpty.forall_iff, implies_true, List.Pairwise.nil, and_true]
    and_intros <;> exact Field.commute_of_put rfl rfl fun _ _ _ => rfl

theorem Result.respects_read : Respects .result Result.layout.read := by
  refine Layout.Fits.respects_read ⟨?_, by decide, by decide, ?_⟩
  · refine .cons ⟨rfl, .plain _⟩ ?_
    refine .cons ⟨rfl, .plain _⟩ ?_
    exact .nil
  · simp only [Result.layout, List.pairwise_cons, List.forall_mem_cons, List.not_mem_nil,
      IsEmpty.forall_iff, implies_true, List.Pairwise.nil, and_true]
    exact Field.commute_of_put rfl rfl fun _ _ _ => rfl

theorem Method.respects_read : Respects .method Method.layout.read := by
  refine Layout.Fits.respects_read ⟨?_, by decide, by decide, ?_⟩
  · refine .cons ⟨rfl, .plain _⟩ ?_
    refine .cons ⟨rfl, .plain _⟩ ?_
    refine .cons ⟨rfl, Property.respects_read.list.put _⟩ ?_
    refine .cons ⟨rfl, Result.respects_read.optional.put _⟩ ?_
    exact .nil
  · simp only [Method.layout, List.pairwise_cons, List.forall_mem_cons, List.not_mem_nil,
      IsEmpty.forall_iff, implies_true, List.Pairwise.nil, and_true]
    and_intros <;> exact Field.commute_of_put rfl rfl fun _ _ _ => rfl

theorem Constructor.respects_read : Respects .constructor Constructor.layout.read := by
  refine Layout.Fits.respects_read ⟨?_, by decide, by decide, ?_⟩
  · refine .cons ⟨rfl, Property.respects_read.list.put _⟩ ?_
    exact .nil
  · exact List.pairwise_singleton _ _

theorem RemoteClass.respects_read : Respects .remoteClass RemoteClass.layout.read := by
  refine Layout.Fits.respects_read ⟨?_, by decide, by decide, ?_⟩
  · refine .cons ⟨rfl, .plain _⟩ ?_
    refine .cons ⟨rfl, .plain _⟩ ?_
    refine .cons ⟨rfl, .plain _⟩ ?_
    refine .cons ⟨rfl, Property.respects_read.list.put _⟩ ?_
    refine .cons ⟨rfl, Method.respects_read.list.put _⟩ ?_
    refine .cons ⟨rfl, .plain _⟩ ?_
    refine .cons ⟨rfl, Constructor.respects_read.optional.put _⟩ ?_
    exact .nil
  · simp only [RemoteClass.layout, List.pairwise_cons, List.forall_mem_cons, List.not_mem_nil,
      IsEmpty.forall_iff, implies_true, List.Pairwise.nil, and_true]
    and_intros <;> exact Field.commute_of_put rfl rfl fun _ _ _ => rfl

theorem ComplexType.respects_read : Respects .complexType ComplexType.layout.read := by
  refine Layout.Fits.respects_read ⟨?_, by decide, by decide, ?_⟩
  · refine .cons ⟨rfl, .plain _⟩ ?_
    refine .cons ⟨rfl, .plain _⟩ ?_
    refine .cons ⟨rfl, .plain _⟩ ?_
    refine .cons ⟨rfl, .plain _⟩ ?_
    refine .cons ⟨rfl, Property.respects_read.list.put _⟩ ?_
    refine .cons ⟨rfl, .plain _⟩ ?_
    exact .nil
  · simp only [ComplexType.layout, List.pairwise_cons, List.forall_mem_cons, List.not_mem_nil,
      IsEmpty.forall_iff, implies_true, List.Pairwise.nil, and_true]
    and_intros <;> exact Field.commute_of_put rfl rfl fun _ _ _ => rfl

theorem Document.respects_read : Respects .document Document.layout.read := by
  refine Layout.Fits.respects_read ⟨?_, by decide, by decide, ?_⟩
  · refine .cons ⟨rfl, RemoteClass.respects_read.list.put _⟩ ?_
    refine .cons ⟨rfl, ComplexType.respects_read.list.put _⟩ ?_
    exact .nil
  · simp only [Document.layout, List.pairwise_cons, List.forall_mem_cons, List.not_mem_nil,
      IsEmpty.forall_iff, implies_true, List.Pairwise.nil, and_true]
    exact Field.commute_of_put rfl rfl fun _ _ _ => rfl

/-! ## Texts -/

/-- The second text writes what any number of edits make of the first. -/
def EditedTo (text text' : String) : Prop :=
  ∃ tree tree', Json.Writes (withoutLineBreaks text.toList) tree ∧ Edits .document tree tree' ∧
    Json.Writes (withoutLineBreaks text'.toList) tree'

/-- **Spelling, order and unknown keys carry no meaning**: a text that is accepted is still accepted
    after any combination of edits, as the same description. -/
theorem Document.parse_eq_ok_of_editedTo {text text' : String} {d : Document}
    (h : Document.parse text = .ok d) (hedited : EditedTo text text') :
    Document.parse text' = .ok d := by
  obtain ⟨tree, tree', hwrites, hedits, hwrites'⟩ := hedited
  obtain ⟨same, hsame, hread⟩ := parse_eq_ok_iff.1 h
  obtain rfl : tree = same := hwrites.unique hsame
  exact parse_eq_ok_iff.2 ⟨tree', hwrites', Document.respects_read.edits hedits hread⟩

def playerText : String :=
  "\x7b\"remoteClasses\": [\x7b\"name\": \"Player\", " ++
    "\"methods\": [\x7b\"name\": \"play\"\x7d]\x7d]\x7d"

def playerEditedText : String :=
  "\x7b\"note\": [{}],\n\"RemoteClasses\": [\x7b\"methods\": " ++
    "[\x7b\"Name\": \"play\", \"since\": null\x7d], \"name\": \"Player\"\x7d]\x7d"

/-- Members change places and keys their case, on three levels, and two members are added. -/
theorem playerText_editedTo : EditedTo playerText playerEditedText := by
  let play : Json.Tree := .text (some "play")
  let player : Json.Member := (some "name", .text (some "Player"))
  refine ⟨.object [(some "remoteClasses", .list [.object [player,
      (some "methods", .list [.object [(some "name", play)]])]])],
    .object [(some "note", .list [.object []]), (some "RemoteClasses", .list [.object [
      (some "methods", .list [.object [(some "Name", play), (some "since", .null)]]), player]])],
    Json.read_eq_iff.1 (by cbv), ?_, Json.read_eq_iff.1 (by cbv)⟩
  -- From the inside out: the method, the class around it, the whole.
  have hmethod : Edits .method (.object [(some "name", play)])
      (.object [(some "Name", play), (some "since", .null)]) := by
    have hinsert : Edits .method (.object [(some "name", play)])
        (.object [(some "name", play), (some "since", .null)]) :=
      @Edits.insert _ _ _ [(some "name", play)] [] (by decide) rfl
    have hrespell : Edit .method (.object [(some "name", play), (some "since", .null)])
        (.object [(some "Name", play), (some "since", .null)]) :=
      .respell (show "name" ∈ _ by decide) (by decide) (by decide)
    exact hinsert.tail hrespell
  have hclass : Edits .remoteClass
      (.object [player, (some "methods", .list [.object [(some "name", play)]])])
      (.object [(some "methods", .list [.object [(some "Name", play), (some "since", .null)]]),
        player]) := by
    refine .head (.reorder (.swap _ _ _)) ?_
    exact Edits.field (show ("methods", .listOf .method) ∈ _ by simp) (by decide)
      (@Edits.item _ [] [] _ _ hmethod)
  refine (Edits.field (show ("remoteClasses", .listOf .remoteClass) ∈ _ by simp) (by decide)
    (@Edits.item _ [] [] _ _ hclass)).trans ?_
  exact (Relation.ReflTransGen.single
    (.respell (show "remoteClasses" ∈ _ by decide) (by decide) (by decide))).tail
    (.insert (by decide) rfl)

theorem playerEditedText_parse_eq :
    ∃ d, Document.parse playerText = .ok d ∧ Document.parse playerEditedText = .ok d := by
  obtain ⟨d, hd⟩ : ∃ d, Document.parse playerText = .ok d :=
    Outcome.exists_eq_ok_of_isOk (by decide +kernel)
  exact ⟨d, hd, Document.parse_eq_ok_of_editedTo hd playerText_editedTo⟩

end GoBindings.Schema
