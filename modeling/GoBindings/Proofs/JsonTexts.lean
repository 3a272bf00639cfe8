import GoBindings.Json.Tree
import GoBindings.Proofs.JsonTokens

set_option autoImplicit false

/-! # The trees of data texts

A tree is written as a row of tokens (`Tree.written`). The tokens that a reader has taken so far can
be told from its state at any time (`Reader.Taken`), so a tree that it completes is the one that was
written; and the row of a tree leads to that tree. Reading is therefore exact: a text is read as a
tree, whole and without a fault, exactly if it writes that tree (`read_eq_iff`). -/

namespace GoBindings

/-! ## Lists with separators -/

section Separated

variable {α β : Type} {sep : β} {f : α → List β}

theorem intercalate_map_cons (a : α) (as : List α) :
    [sep].intercalate ((a :: as).map f) = f a ++ as.flatMap fun a => sep :: f a := by
  induction as generalizing a with
  | nil => exact List.intercalate_singleton.trans (List.append_nil _).symm
  | cons b as ih =>
    rw [List.map_cons, List.map_cons, List.intercalate_cons_cons, ← List.map_cons, ih,
      List.flatMap_cons, List.append_assoc]
    rfl

theorem intercalate_map_concat (a : α) (as : List α) :
    [sep].intercalate ((as ++ [a]).map f) = (as.flatMap fun a => f a ++ [sep]) ++ f a := by
  induction as with
  | nil => exact List.intercalate_singleton
  | cons b as ih =>
    have hne : (as ++ [a]).map f ≠ [] := by simp
    rw [List.cons_append, List.map_cons, List.intercalate_cons_of_ne_nil hne, ih,
      List.flatMap_cons]
    simp only [List.append_assoc]

theorem mem_intercalate_map {b : β} {a : α} {as : List α} (ha : a ∈ as) (hb : b ∈ f a) :
    b ∈ [sep].intercalate (as.map f) := by
  cases as with
  | nil => exact absurd ha List.not_mem_nil
  | cons c as =>
    rw [intercalate_map_cons, List.mem_append, List.mem_flatMap]
    rcases List.mem_cons.1 ha with rfl | ha
    · exact Or.inl hb
    · exact Or.inr ⟨a, ha, List.mem_cons_of_mem _ hb⟩

end Separated

namespace Json

/-! ## Trees as rows of tokens -/

namespace Tree

mutual

/-- The tokens of a tree, in order. -/
def written : Tree → List Token
  | fault => [.fault]
  | null => [.null]
  | boolean b => [.boolean b]
  | number n => [.number n]
  | text s => [.text s]
  | list items => .openList :: ([Token.comma].intercalate (writtenItems items) ++ [.closeList])
  | object members =>
    .openObject :: ([Token.comma].intercalate (writtenMembers members) ++ [.closeObject])

def writtenItems : List Tree → List (List Token)
  | [] => []
  | t :: ts => t.written :: writtenItems ts

def writtenMembers : List (Option String × Tree) → List (List Token)
  | [] => []
  | (key, t) :: ms => (.text key :: .colon :: t.written) :: writtenMembers ms

end

def writtenMember (m : Member) : List Token := .text m.1 :: .colon :: m.2.written

/-- Induction on a tree, with a hypothesis for every item and every member. -/
theorem induction {motive : Tree → Prop} (fault : motive .fault) (null : motive .null)
    (boolean : ∀ b, motive (.boolean b)) (number : ∀ n, motive (.number n))
    (text : ∀ s, motive (.text s))
    (list : ∀ items, (∀ t ∈ items, motive t) → motive (.list items))
    (object : ∀ members : List Member, (∀ m ∈ members, motive m.2) → motive (.object members))
    (t : Tree) : motive t :=
  @Tree.rec motive (fun items => ∀ t ∈ items, motive t)
    (fun members => ∀ m ∈ members, motive m.2) (fun m => motive m.2)
    fault null boolean number text list object
    (fun _ ht => absurd ht List.not_mem_nil)
    (fun _ _ ht hts => List.forall_mem_cons.2 ⟨ht, hts⟩)
    (fun _ hm => absurd hm List.not_mem_nil)
    (fun _ _ hm hms => List.forall_mem_cons.2 ⟨hm, hms⟩)
    (fun _ _ ht => ht) t

theorem isIntact_list {items : List Tree} :
    (list items).isIntact = true ↔ ∀ t ∈ items, t.isIntact = true := by
  show allIntact items = true ↔ _
  induction items with
  | nil => simp [allIntact]
  | cons t ts ih => rw [allIntact, Bool.and_eq_true, ih, List.forall_mem_cons]

theorem isIntact_object {members : List Member} :
    (object members).isIntact = true ↔ ∀ m ∈ members, m.2.isIntact = true := by
  show membersIntact members = true ↔ _
  induction members with
  | nil => simp [membersIntact]
  | cons m ms ih => rw [membersIntact, Bool.and_eq_true, ih, List.forall_mem_cons]

theorem writtenItems_eq_map (items : List Tree) : writtenItems items = items.map written := by
  induction items with
  | nil => rfl
  | cons t ts ih => rw [writtenItems, ih, List.map_cons]

theorem writtenMembers_eq_map (members : List Member) :
    writtenMembers members = members.map writtenMember := by
  induction members with
  | nil => rfl
  | cons m ms ih => rw [writtenMembers, ih, List.map_cons, writtenMember]

theorem written_list_concat (items : List Tree) (t : Tree) :
    (list (items ++ [t])).written
      = .openList :: (items.flatMap fun t => t.written ++ [.comma]) ++ t.written
        ++ [.closeList] := by
  rw [written, writtenItems_eq_map, intercalate_map_concat]
  simp

theorem written_object_concat (members : List Member) (m : Member) :
    (object (members ++ [m])).written
      = .openObject :: (members.flatMap fun m => writtenMember m ++ [.comma]) ++ writtenMember m
        ++ [.closeObject] := by
  rw [written, writtenMembers_eq_map, intercalate_map_concat]
  simp

end Tree

/-! ## What a reader has taken -/

/-- What has been read of a list or an object before the value that is being read. -/
def Frame.written : Frame → List Token
  | .list items => .openList :: items.reverse.flatMap fun t => t.written ++ [.comma]
  | .object members key =>
    .openObject :: (members.reverse.flatMap fun m => Tree.writtenMember m ++ [.comma])
      ++ [.text key, .colon]

namespace Reader

def stackWritten : List Frame → List Token
  | [] => []
  | frame :: stack => stackWritten stack ++ frame.written

/-- The tokens that a reader has taken, unless they were no row of a tree. -/
def Taken : Reader → List Token → Prop
  | value stack, ts => ts = stackWritten stack
  | listStart stack, ts => ts = stackWritten stack ++ [.openList]
  | listNext items stack, ts =>
    ∃ t rest, items = t :: rest ∧ ts = stackWritten (.list rest :: stack) ++ t.written
  | objectStart stack, ts => ts = stackWritten stack ++ [.openObject]
  | objectKey members stack, ts =>
    ts = stackWritten stack
      ++ .openObject :: members.reverse.flatMap fun m => Tree.writtenMember m ++ [.comma]
  | objectColon members key stack, ts =>
    ts ++ [.colon] = stackWritten (.object members key :: stack)
  | objectNext members stack, ts =>
    ∃ key t rest, members = (key, t) :: rest ∧
      ts = stackWritten (.object rest key :: stack) ++ t.written
  | complete tree, ts => ts = tree.written
  | broken _, _ => True

theorem taken_put (t : Tree) (stack : List Frame) :
    (put t stack).Taken (stackWritten stack ++ t.written) := by
  cases stack with
  | nil => rfl
  | cons frame stack =>
    cases frame with
    | list items => exact ⟨t, items, rfl, rfl⟩
    | object members key => exact ⟨key, t, members, rfl, rfl⟩

theorem taken_startValue (stack : List Frame) (t : Token) :
    (startValue stack t).Taken (stackWritten stack ++ [t]) := by
  cases t with
  | null => exact taken_put .null stack
  | boolean b => exact taken_put (.boolean b) stack
  | number n => exact taken_put (.number n) stack
  | text s => exact taken_put (.text s) stack
  | openList => rfl
  | openObject => rfl
  | _ => trivial

/-- One token more. -/
theorem Taken.step {r : Reader} {ts : List Token} (h : r.Taken ts) (t : Token) :
    (r.step t).Taken (ts ++ [t]) := by
  unfold Reader.step
  split
  · obtain rfl := h
    exact taken_startValue _ t
  · next stack =>
    obtain rfl := h
    rw [List.append_assoc]
    exact taken_put (.list []) stack
  · obtain rfl := h
    exact taken_startValue (.list [] :: _) t
  · next items stack =>
    obtain ⟨t, rest, rfl, rfl⟩ := h
    show _ = stackWritten (.list (t :: rest) :: stack)
    simp [stackWritten, Frame.written]
  · next items stack =>
    obtain ⟨t, rest, rfl, rfl⟩ := h
    have hput := taken_put (.list (t :: rest).reverse) stack
    rw [List.reverse_cons, Tree.written_list_concat] at hput
    simpa [stackWritten, Frame.written] using hput
  · next stack =>
    obtain rfl := h
    rw [List.append_assoc]
    exact taken_put (.object []) stack
  · next stack key =>
    obtain rfl := h
    show _ ++ [Token.colon] = stackWritten (.object [] key :: stack)
    simp [stackWritten, Frame.written]
  · next members stack key =>
    obtain rfl := h
    show _ ++ [Token.colon] = stackWritten (.object members key :: stack)
    simp [stackWritten, Frame.written]
  · exact h
  · next members stack =>
    obtain ⟨key, t, rest, rfl, rfl⟩ := h
    show _ = stackWritten stack ++ .openObject ::
      ((key, t) :: rest).reverse.flatMap fun m => Tree.writtenMember m ++ [.comma]
    simp [stackWritten, Frame.written, Tree.writtenMember]
  · next members stack =>
    obtain ⟨key, t, rest, rfl, rfl⟩ := h
    have hput := taken_put (.object ((key, t) :: rest).reverse) stack
    rw [List.reverse_cons, Tree.written_object_concat] at hput
    simpa [stackWritten, Frame.written, Tree.writtenMember] using hput
  · trivial

theorem Taken.foldl {r : Reader} {taken : List Token} (h : r.Taken taken) (ts : List Token) :
    (ts.foldl Reader.step r).Taken (taken ++ ts) := by
  induction ts generalizing r taken with
  | nil => rwa [List.append_nil]
  | cons t ts ih =>
    have hrest := ih (h.step t)
    rwa [List.append_assoc] at hrest

theorem foldl_broken (tree : Tree) (ts : List Token) :
    ts.foldl Reader.step (broken tree) = broken tree := by
  induction ts with
  | nil => rfl
  | cons t ts ih => exact ih

/-- A fault is never passed over. -/
theorem fault_not_mem_of_complete {r : Reader} {tree : Tree} {ts : List Token}
    (h : ts.foldl Reader.step r = complete tree) : Token.fault ∉ ts := by
  induction ts generalizing r with
  | nil => exact List.not_mem_nil
  | cons t ts ih =>
    intro hmem
    rcases List.mem_cons.1 hmem with rfl | hmem
    · have hbroken : ∃ tree', r.step .fault = broken tree' := by
        cases r <;> exact ⟨_, rfl⟩
      obtain ⟨tree', hbroken⟩ := hbroken
      rw [List.foldl_cons, hbroken, foldl_broken] at h
      exact absurd h nofun
    · exact ih h hmem

/-- Inside a list, the first item is read like any other. -/
theorem foldl_listStart (t : Tree) (stack : List Frame) :
    t.written.foldl Reader.step (listStart stack)
      = t.written.foldl Reader.step (value (.list [] :: stack)) := by
  cases t <;> rfl

theorem foldl_items {ts : List Tree}
    (h : ∀ t ∈ ts, ∀ stack, t.written.foldl Reader.step (value stack) = put t stack)
    (done : List Tree) (stack : List Frame) :
    (ts.flatMap fun t => Token.comma :: t.written).foldl Reader.step (listNext done stack)
      = listNext (ts.reverse ++ done) stack := by
  induction ts generalizing done with
  | nil => rfl
  | cons t ts ih =>
    obtain ⟨ht, hts⟩ := List.forall_mem_cons.1 h
    rw [List.flatMap_cons, List.foldl_append, List.foldl_cons]
    show List.foldl _ (List.foldl _ (value (.list done :: stack)) t.written) _ = _
    rw [ht, put, ih hts]
    simp

theorem foldl_members {ms : List Member}
    (h : ∀ m ∈ ms, ∀ stack, m.2.written.foldl Reader.step (value stack) = put m.2 stack)
    (done : List Member) (stack : List Frame) :
    (ms.flatMap fun m => Token.comma :: Tree.writtenMember m).foldl Reader.step
        (objectNext done stack)
      = objectNext (ms.reverse ++ done) stack := by
  induction ms generalizing done with
  | nil => rfl
  | cons m ms ih =>
    obtain ⟨hm, hms⟩ := List.forall_mem_cons.1 h
    rw [List.flatMap_cons, List.foldl_append, List.foldl_cons]
    show List.foldl _ (List.foldl _ (value (.object done m.1 :: stack)) m.2.written) _ = _
    rw [hm, put, ih hms]
    simp

/-- Reading the tokens of a tree puts the tree. -/
theorem foldl_written {t : Tree} (h : t.isIntact = true) (stack : List Frame) :
    t.written.foldl Reader.step (value stack) = put t stack := by
  induction t using Tree.induction generalizing stack with
  | fault => exact absurd h Bool.false_ne_true
  | list items ih =>
    have hitems := fun t ht stack => ih t ht (Tree.isIntact_list.1 h t ht) stack
    cases items with
    | nil => rfl
    | cons t ts =>
      obtain ⟨ht, hts⟩ := List.forall_mem_cons.1 hitems
      rw [Tree.written, Tree.writtenItems_eq_map, intercalate_map_cons, List.foldl_cons,
        List.foldl_append, List.foldl_append]
      show List.foldl _ (List.foldl _ (List.foldl _ (listStart stack) t.written) _) _ = _
      rw [foldl_listStart, ht, put, foldl_items hts]
      simp [Reader.step]
  | object members ih =>
    have hmembers := fun m hm stack => ih m hm (Tree.isIntact_object.1 h m hm) stack
    cases members with
    | nil => rfl
    | cons m ms =>
      obtain ⟨hm, hms⟩ := List.forall_mem_cons.1 hmembers
      rw [Tree.written, Tree.writtenMembers_eq_map, intercalate_map_cons, List.foldl_cons,
        List.foldl_append, List.foldl_append]
      show List.foldl _ (List.foldl _ (List.foldl _
        (value (.object [] m.1 :: stack)) m.2.written) _) _ = _
      rw [hm, put, foldl_members hms]
      simp [Reader.step]
  | _ => rfl

end Reader

/-! ## Reading is exact -/

/-- The text writes the tree. -/
def Writes (cs : List Char) (t : Tree) : Prop := Lexed cs t.written

theorem Tree.isIntact_of_fault_not_mem {t : Tree} (h : Token.fault ∉ t.written) :
    t.isIntact = true := by
  induction t using Tree.induction with
  | fault => exact absurd List.mem_cons_self h
  | list items ih =>
    refine isIntact_list.2 fun t ht => ih t ht fun hfault => h ?_
    rw [written, writtenItems_eq_map]
    exact List.mem_cons_of_mem _ (List.mem_append_left _ (mem_intercalate_map ht hfault))
  | object members ih =>
    refine isIntact_object.2 fun m hm => ih m hm fun hfault => h ?_
    have hmember : Token.fault ∈ writtenMember m :=
      List.mem_cons_of_mem _ (List.mem_cons_of_mem _ hfault)
    rw [written, writtenMembers_eq_map]
    exact List.mem_cons_of_mem _ (List.mem_append_left _ (mem_intercalate_map hm hmember))
  | _ => rfl

theorem Apart.append {ts us : List Token} (hts : Apart ts) (hus : Apart us)
    (hhead : ∀ u ∈ us.head?, u.isNumber = false) : Apart (ts ++ us) := by
  induction ts with
  | nil => exact hus
  | cons t ts ih =>
    refine ⟨fun hnumber => ?_, ih hts.2⟩
    cases ts with
    | nil => exact hhead
    | cons v ts => exact hts.1 hnumber

theorem apart_intercalate {α : Type} {f : α → List Token} {as : List α}
    (h : ∀ a ∈ as, Apart (f a)) {rest : List Token} (hrest : Apart rest)
    (hhead : ∀ u ∈ rest.head?, u.isNumber = false) :
    Apart ([Token.comma].intercalate (as.map f) ++ rest) := by
  have hmore : ∀ {as : List α}, (∀ a ∈ as, Apart (f a)) →
      Apart ((as.flatMap fun a => Token.comma :: f a) ++ rest) ∧
        ∀ u ∈ ((as.flatMap fun a => Token.comma :: f a) ++ rest).head?, u.isNumber = false := by
    intro as has
    induction as with
    | nil => exact ⟨hrest, hhead⟩
    | cons a as ih =>
      obtain ⟨ha, has⟩ := List.forall_mem_cons.1 has
      obtain ⟨hapart, hnext⟩ := ih has
      rw [List.flatMap_cons, List.append_assoc, List.cons_append]
      refine ⟨⟨nofun, ha.append hapart hnext⟩, ?_⟩
      rintro u ⟨⟩
      rfl
  cases as with
  | nil => exact hrest
  | cons a as =>
    obtain ⟨ha, has⟩ := List.forall_mem_cons.1 h
    rw [intercalate_map_cons, List.append_assoc]
    exact ha.append (hmore has).1 (hmore has).2

theorem Tree.apart_written (t : Tree) : Apart t.written := by
  induction t using Tree.induction with
  | list items ih =>
    rw [written, writtenItems_eq_map]
    refine ⟨nofun, apart_intercalate ih ⟨nofun, trivial⟩ ?_⟩
    rintro u ⟨⟩
    rfl
  | object members ih =>
    rw [written, writtenMembers_eq_map]
    refine ⟨nofun, apart_intercalate (fun m hm => ?_) ⟨nofun, trivial⟩ ?_⟩
    · exact ⟨nofun, nofun, ih m hm⟩
    · rintro u ⟨⟩
      rfl
  | _ => exact ⟨nofun, trivial⟩

/-- **Reading is exact**: a text is read as a tree exactly if it writes that tree. -/
theorem read_eq_iff {cs : List Char} {t : Tree} : read cs = (t, true) ↔ Writes cs t := by
  unfold read Writes
  constructor
  · intro h
    have hcomplete : (tokens cs).foldl Reader.step (.value []) = .complete t := by
      cases hr : (tokens cs).foldl Reader.step (.value []) with
      | complete tree =>
        rw [hr] at h
        rw [(Prod.mk.inj h).1]
      | _ =>
        rw [hr] at h
        exact absurd (Prod.mk.inj h).2 Bool.false_ne_true
    have htaken := Reader.Taken.foldl (show (Reader.value []).Taken [] from rfl) (tokens cs)
    rw [hcomplete, List.nil_append] at htaken
    have hlexed := (lexed_tokens cs).resolve_left (Reader.fault_not_mem_of_complete hcomplete)
    rwa [show tokens cs = t.written from htaken] at hlexed
  · intro h
    have hintact := Tree.isIntact_of_fault_not_mem h.fault_not_mem
    rw [tokens_of_lexed h t.apart_written, Reader.foldl_written hintact]
    rfl

theorem Writes.unique {cs : List Char} {t u : Tree} (ht : Writes cs t) (hu : Writes cs u) :
    t = u :=
  (Prod.mk.inj ((read_eq_iff.2 ht).symm.trans (read_eq_iff.2 hu))).1

end Json

end GoBindings
