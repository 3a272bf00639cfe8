import GoBindings.Logged
import GoBindings.NameSet
import Mathlib.Data.List.Forall2
import Mathlib.Data.List.Nodup

set_option autoImplicit false

/-! # Outcomes of compound steps

When does a chain of steps, or a step on every item of a list, succeed? Each answer is an
equivalence, so a proof about a run takes it apart, or puts it together, without opening the steps.
A step with notices is reduced to its result first (`result_mapM`): notices never decide anything.
-/

namespace GoBindings

/-! ## Steps that may fail -/

namespace Outcome

variable {ε α β : Type}

theorem bind_eq_ok_iff {x : Except ε α} {f : α → Except ε β} {b : β} :
    x >>= f = .ok b ↔ ∃ a, x = .ok a ∧ f a = .ok b := by
  cases x with
  | error e => simp [bind, Except.bind]
  | ok a => simp [bind, Except.bind]

theorem map_eq_ok_iff {x : Except ε α} {f : α → β} {b : β} :
    f <$> x = .ok b ↔ ∃ a, x = .ok a ∧ f a = b := by
  cases x with
  | error e => simp [Functor.map, Except.map]
  | ok a => simp [Functor.map, Except.map]

@[simp]
theorem pure_eq_ok_iff {a b : α} : (pure a : Except ε α) = .ok b ↔ a = b := by
  simp [pure, Except.pure]

theorem exists_eq_ok_of_isOk {x : Except ε α} (h : x.isOk = true) : ∃ a, x = .ok a := by
  cases x with
  | error e => exact absurd h Bool.false_ne_true
  | ok a => exact ⟨a, rfl⟩

/-- A check gives nothing but its success. -/
theorem check_bind_eq_ok_iff {x : Except ε Unit} {y : Except ε β} {b : β} :
    (x >>= fun _ => y) = .ok b ↔ x = .ok () ∧ y = .ok b := by
  rw [bind_eq_ok_iff]
  exact ⟨fun ⟨_, hx, hy⟩ => ⟨hx, hy⟩, fun ⟨hx, hy⟩ => ⟨(), hx, hy⟩⟩

/-- A step on every item succeeds exactly if it does on each of them. -/
theorem mapM_eq_ok_iff {f : α → Except ε β} {as : List α} {bs : List β} :
    as.mapM f = .ok bs ↔ List.Forall₂ (fun a b => f a = .ok b) as bs := by
  induction as generalizing bs with
  | nil => rw [List.mapM_nil, pure_eq_ok_iff, List.forall₂_nil_left_iff, eq_comm]
  | cons a as ih =>
    rw [List.mapM_cons, bind_eq_ok_iff, List.forall₂_cons_left_iff]
    constructor
    · rintro ⟨b, hb, h⟩
      obtain ⟨rest, hrest, h⟩ := bind_eq_ok_iff.1 h
      exact ⟨b, rest, hb, ih.1 hrest, (pure_eq_ok_iff.1 h).symm⟩
    · rintro ⟨b, rest, hb, hrest, rfl⟩
      exact ⟨b, hb, bind_eq_ok_iff.2 ⟨rest, ih.2 hrest, rfl⟩⟩

theorem forM_eq_ok_iff {f : α → Except ε Unit} {as : List α} :
    as.forM f = .ok () ↔ ∀ a ∈ as, f a = .ok () := by
  induction as with
  | nil => simp [List.forM]
  | cons a as ih =>
    rw [List.forall_mem_cons, ← ih]
    exact check_bind_eq_ok_iff

/-- One step after another on every item. -/
theorem forall₂_trans {γ : Type} {R : α → β → Prop} {S : β → γ → Prop} {as : List α} {bs : List β}
    {cs : List γ} (hr : List.Forall₂ R as bs) (hs : List.Forall₂ S bs cs) :
    List.Forall₂ (fun a c => ∃ b, R a b ∧ S b c) as cs := by
  induction hr generalizing cs with
  | nil =>
    cases hs
    exact .nil
  | cons hab _ ih =>
    obtain ⟨c, cs, hbc, hrest, rfl⟩ := List.forall₂_cons_left_iff.1 hs
    exact .cons ⟨_, hab, hbc⟩ (ih hrest)

theorem forall₂_of_getElem? {R : α → β → Prop} {as : List α} {bs : List β}
    (hlength : as.length = bs.length)
    (h : ∀ (i : Nat) a b, as[i]? = some a → bs[i]? = some b → R a b) : List.Forall₂ R as bs := by
  refine List.forall₂_iff_get.2 ⟨hlength, fun i ha hb => ?_⟩
  exact h i (as.get ⟨i, ha⟩) (bs.get ⟨i, hb⟩) (by simp) (by simp)

theorem exists_getElem?_of_forall₂ {R : α → β → Prop} {as : List α} {bs : List β}
    (h : List.Forall₂ R as bs) {i : Nat} {b : β} (hb : bs[i]? = some b) :
    ∃ a, as[i]? = some a ∧ R a b := by
  induction h generalizing i with
  | nil => exact absurd hb (by simp)
  | cons hab _ ih =>
    cases i with
    | zero => exact ⟨_, rfl, Option.some.inj hb ▸ hab⟩
    | succ i => exact ih hb

theorem exists_of_mem_right {R : α → β → Prop} {as : List α} {bs : List β} {b : β}
    (h : List.Forall₂ R as bs) (hb : b ∈ bs) : ∃ a ∈ as, R a b := by
  induction h with
  | nil => exact absurd hb List.not_mem_nil
  | @cons a b' as bs hab _ ih =>
    rcases List.mem_cons.1 hb with rfl | hb
    · exact ⟨a, List.mem_cons_self, hab⟩
    · obtain ⟨a', ha', hr⟩ := ih hb
      exact ⟨a', List.mem_cons_of_mem a ha', hr⟩

theorem exists_of_mem_left {R : α → β → Prop} {as : List α} {bs : List β} {a : α}
    (h : List.Forall₂ R as bs) (ha : a ∈ as) : ∃ b ∈ bs, R a b :=
  exists_of_mem_right h.flip ha

/-- Counterparts that exist for every item exist for all together. -/
theorem exists_forall₂ {R : α → β → Prop} {as : List α} (h : ∀ a ∈ as, ∃ b, R a b) :
    ∃ bs, List.Forall₂ R as bs := by
  induction as with
  | nil => exact ⟨[], .nil⟩
  | cons a as ih =>
    rw [List.forall_mem_cons] at h
    obtain ⟨⟨b, hb⟩, hrest⟩ := h
    obtain ⟨bs, hbs⟩ := ih hrest
    exact ⟨b :: bs, .cons hb hbs⟩

theorem forall₂_of_map_eq {f : α → β} {as bs : List α} (h : as.map f = bs.map f) :
    List.Forall₂ (fun a b => f a = f b) as bs := by
  rwa [← List.forall₂_eq_eq_eq, List.forall₂_map_left_iff, List.forall₂_map_right_iff] at h

/-- What holds between any two items holds between their counterparts. -/
theorem pairwise_iff_of_forall₂ {R : α → β → Prop} {S : α → α → Prop} {T : β → β → Prop}
    {as : List α} {bs : List β} (h : List.Forall₂ R as bs)
    (hst : ∀ a b a' b', R a b → R a' b' → (S a a' ↔ T b b')) : as.Pairwise S ↔ bs.Pairwise T := by
  induction h with
  | nil => simp
  | @cons a b as bs hab hrest ih =>
    rw [List.pairwise_cons, List.pairwise_cons, ih]
    refine and_congr_left fun _ => ⟨fun hall b' hb' => ?_, fun hall a' ha' => ?_⟩
    · obtain ⟨a', ha', hab'⟩ := exists_of_mem_right hrest hb'
      exact (hst a b a' b' hab hab').1 (hall a' ha')
    · obtain ⟨b', hb', hab'⟩ := exists_of_mem_left hrest ha'
      exact (hst a b a' b' hab hab').2 (hall b' hb')

/-- Items that match give together what their counterparts give. -/
theorem flatMap_eq_of_forall₂ {γ : Type} {R : α → β → Prop} {f : α → List γ} {g : β → List γ}
    {as : List α} {bs : List β} (h : List.Forall₂ R as bs) (hfg : ∀ a b, R a b → g b = f a) :
    bs.flatMap g = as.flatMap f := by
  induction h with
  | nil => rfl
  | cons hab _ ih => rw [List.flatMap_cons, List.flatMap_cons, ih, hfg _ _ hab]

/-! ## Steps that go together -/

/-- Both fail in the same way, or both succeed and their results are related. -/
inductive Alike (R : α → β → Prop) : Except ε α → Except ε β → Prop
  | error (e : ε) : Alike R (.error e) (.error e)
  | ok {a : α} {b : β} (h : R a b) : Alike R (.ok a) (.ok b)

theorem alike_eq_iff {x y : Except ε α} : Alike (· = ·) x y ↔ x = y := by
  constructor
  · rintro (e | rfl)
    · rfl
    · rfl
  · rintro rfl
    cases x with
    | error e => exact .error e
    | ok a => exact .ok rfl

/-- What goes on alike from results that are related stays alike. -/
theorem Alike.bind {γ δ : Type} {R : α → β → Prop} {S : γ → δ → Prop} {x : Except ε α}
    {y : Except ε β} {f : α → Except ε γ} {g : β → Except ε δ} (h : Alike R x y)
    (hnext : ∀ a b, x = .ok a → y = .ok b → R a b → Alike S (f a) (g b)) :
    Alike S (x >>= f) (y >>= g) := by
  cases h with
  | error e => exact .error e
  | ok hab => exact hnext _ _ rfl rfl hab

/-- Computations that begin alike are compared after their common step. -/
theorem Alike.bind_same {γ δ : Type} {S : γ → δ → Prop} {x : Except ε α} {f : α → Except ε γ}
    {g : α → Except ε δ} (hnext : ∀ a, Alike S (f a) (g a)) : Alike S (x >>= f) (x >>= g) := by
  cases x with
  | error e => exact .error e
  | ok a => exact hnext a

theorem Alike.mapM {γ δ : Type} {S : γ → δ → Prop} {f : α → Except ε γ} {g : β → Except ε δ}
    {as : List α} {bs : List β} (h : List.Forall₂ (fun a b => Alike S (f a) (g b)) as bs) :
    Alike (List.Forall₂ S) (as.mapM f) (bs.mapM g) := by
  induction h with
  | nil => exact .ok .nil
  | cons hab _ ih =>
    rw [List.mapM_cons, List.mapM_cons]
    refine hab.bind fun c d _ _ hcd => ?_
    refine ih.bind fun cs ds _ _ hrest => ?_
    exact .ok (.cons hcd hrest)

theorem mapM_congr_of_forall₂ {γ : Type} {f : α → Except ε γ} {g : β → Except ε γ} {as : List α}
    {bs : List β} (h : List.Forall₂ (fun a b => f a = g b) as bs) : as.mapM f = bs.mapM g := by
  induction h with
  | nil => rfl
  | cons hab _ ih => rw [List.mapM_cons, List.mapM_cons, hab, ih]

end Outcome

/-! ## Steps with notices -/

namespace Logged

variable {α β : Type}

@[simp]
theorem result_ofExcept (x : Except Failure α) : (ofExcept x).result = x := rfl

theorem notices_bind {x : Logged α} {a : α} (h : x.result = .ok a) (f : α → Logged β) :
    (x >>= f).notices = x.notices ++ (f a).notices := by
  show (x.andThen f).notices = _
  unfold andThen
  rw [h]

instance : LawfulMonad Logged := LawfulMonad.mk' _
  (fun x => by
    show x.andThen (fun a => ok (id a)) = x
    obtain ⟨notices, result⟩ := x
    cases result with
    | error failure => rfl
    | ok a => simp [andThen, ok])
  (fun a f => by
    show (ok a).andThen f = f a
    simp [andThen, ok])
  (fun x f g => by
    show (x.andThen f).andThen g = x.andThen fun a => (f a).andThen g
    obtain ⟨notices, result⟩ := x
    cases result with
    | error failure => rfl
    | ok a =>
      simp only [andThen]
      cases (f a).result <;> simp)

theorem result_mapM (f : α → Logged β) (as : List α) :
    (as.mapM f).result = as.mapM fun a => (f a).result := by
  induction as with
  | nil => rfl
  | cons a as ih => simp only [List.mapM_cons, result_bind, ih, result_pure]; rfl

/-- Success on every item, for steps with notices. -/
theorem result_mapM_eq_ok_iff {f : α → Logged β} {as : List α} {bs : List β} :
    (as.mapM f).result = .ok bs ↔ List.Forall₂ (fun a b => (f a).result = .ok b) as bs := by
  rw [result_mapM, Outcome.mapM_eq_ok_iff]

theorem alike_mapM {γ δ : Type} {S : γ → δ → Prop} {f : α → Logged γ} {g : β → Logged δ}
    {as : List α} {bs : List β}
    (h : List.Forall₂ (fun a b => Outcome.Alike S (f a).result (g b).result) as bs) :
    Outcome.Alike (List.Forall₂ S) (as.mapM f).result (bs.mapM g).result := by
  rw [result_mapM, result_mapM]
  exact Outcome.Alike.mapM h

end Logged

/-! ## Names in lists -/

theorem lookup_eq_none_iff_not_mem {α : Type} {pairs : List (String × α)} {name : String} :
    pairs.lookup name = none ↔ name ∉ pairs.map Prod.fst := by
  rw [List.lookup_eq_none_iff, List.mem_map]
  constructor
  · rintro h ⟨p, hp, rfl⟩
    simpa using h p hp
  · intro h p hp
    have hne : ¬ name = p.1 := fun heq => h ⟨p, hp, heq.symm⟩
    simpa using hne

theorem lookup_eq_some_iff_mem {α : Type} {pairs : List (String × α)}
    (h : (pairs.map Prod.fst).Nodup) {name : String} {a : α} :
    pairs.lookup name = some a ↔ (name, a) ∈ pairs := by
  induction pairs with
  | nil => simp
  | cons p pairs ih =>
    obtain ⟨n, b⟩ := p
    rw [List.map_cons, List.nodup_cons] at h
    rw [List.lookup_cons, List.mem_cons, ← ih h.2]
    by_cases hname : name = n
    · subst hname
      have hnone : pairs.lookup name = none := lookup_eq_none_iff_not_mem.2 h.1
      simp [hnone, eq_comm]
    · have hne : (name == n) = false := by simpa using hname
      simp [hne, hname]

namespace NameSet

theorem mem_insert {name n : String} {ns : List String} :
    n ∈ insert name ns ↔ n = name ∨ n ∈ ns := by
  induction ns with
  | nil => simp [insert]
  | cons m ns ih =>
    unfold insert
    split
    · next heq => simp [heq]
    · split
      · simp
      · rw [List.mem_cons, ih, List.mem_cons]; tauto

theorem mem_ofList {n : String} {ns : List String} : n ∈ ofList ns ↔ n ∈ ns := by
  induction ns with
  | nil => simp [ofList]
  | cons m ns ih =>
    show n ∈ insert m (ofList ns) ↔ n ∈ m :: ns
    rw [mem_insert, ih, List.mem_cons]

theorem pairwise_insert {name : String} {ns : List String} (h : ns.Pairwise (· < ·)) :
    (insert name ns).Pairwise (· < ·) := by
  induction ns with
  | nil => exact List.pairwise_singleton _ _
  | cons n ns ih =>
    obtain ⟨hn, hns⟩ := List.pairwise_cons.1 h
    unfold insert
    split
    · exact h
    · next hne =>
      split
      · next hlt =>
        refine List.pairwise_cons.2 ⟨fun m hm => ?_, h⟩
        rcases List.mem_cons.1 hm with rfl | hm
        · exact hlt
        · exact String.lt_trans hlt (hn m hm)
      · next hnot =>
        have hlt : n < name := Std.lt_of_le_of_ne (String.not_lt.1 hnot) fun heq => hne heq.symm
        refine List.pairwise_cons.2 ⟨fun m hm => ?_, ih hns⟩
        rcases mem_insert.1 hm with rfl | hm
        · exact hlt
        · exact hn m hm

/-- The names come in order. -/
theorem pairwise_ofList (ns : List String) : (ofList ns).Pairwise (· < ·) := by
  induction ns with
  | nil => exact .nil
  | cons n ns ih => exact pairwise_insert ih

/-- The search goes on with each name among those seen. -/
theorem firstRepeated_eq_none_iff (seen names : List String) :
    firstRepeated seen names = none ↔ names.Nodup ∧ seen.Disjoint names := by
  induction names generalizing seen with
  | nil => simp [firstRepeated]
  | cons n names ih =>
    rw [firstRepeated, List.nodup_cons, List.disjoint_cons_right]
    by_cases hseen : n ∈ seen
    · simp [hseen]
    · rw [if_neg (by simpa using hseen), ih, List.disjoint_cons_left]
      tauto

end NameSet

end GoBindings
