import GoBindings.Proofs.ReturnBlocks

set_option autoImplicit false

/-! # Where pointers stand in Go types

An optional marker becomes a pointer in one place only: right around a name that has no nil of its
own. So markers that say the same again, that stand around a collection or a remote object, or that
are not told by pointers at all, leave no trace in the Go type. The Go type is a pointer exactly
where conditions and results take it for one (`isPointer_goType_eq`). -/

namespace GoBindings

/-- The types that the pointers in a type point to, from the outside in. -/
def Go.Ty.targets : Go.Ty → List Go.Ty
  | .named _ => []
  | .slice item => item.targets
  | .pointer target => target :: target.targets
  | .map key value => key.targets ++ value.targets

namespace Binding.Resolved

/-! ## Markers -/

/-- The type without any optional marker. -/
def withoutMarkers : Resolved → Resolved
  | collection item => collection item.withoutMarkers
  | optional inner => inner.withoutMarkers
  | t => t

/-- The type with an optional marker around it, unless it has one. -/
def asOptional : Resolved → Resolved
  | optional inner => optional inner
  | t => optional t

/-- The type with one optional marker in place of several that stand next to each other. -/
def collapsed : Resolved → Resolved
  | collection item => collection item.collapsed
  | optional inner => inner.collapsed.asOptional
  | t => t

/-- What is left under all markers and collections. -/
def core : Resolved → Resolved
  | collection item => item.core
  | optional inner => inner.core
  | t => t

theorem core_required (t : Resolved) : t.required.core = t.core := by
  induction t with
  | optional inner ih => exact ih
  | _ => rfl

@[simp]
theorem isNillable_optional (t : Resolved) : (optional t).isNillable = t.isNillable := rfl

@[simp]
theorem isNillable_asOptional (t : Resolved) : t.asOptional.isNillable = t.isNillable := by
  cases t <;> rfl

theorem isNillable_collapsed (t : Resolved) : t.collapsed.isNillable = t.isNillable := by
  induction t with
  | optional inner ih => rw [collapsed, isNillable_asOptional, ih, isNillable_optional]
  | _ => rfl

/-! ## Pointers -/

/-- A type is taken for a pointer exactly if it is printed as one. -/
theorem isPointer_goType_eq (style : OptionalStyle) (t : Resolved) :
    (t.goType style).isPointer = t.isPointerOptional style := by
  rw [goType_eq]
  cases t.isPointerOptional style with
  | true => rfl
  | false => exact isPointer_goType_required style t

/-- The Go type of an optional type depends on the Go type inside, and on whether that has a nil. -/
theorem goType_optional_congr {style : OptionalStyle} {t u : Resolved}
    (hnillable : t.isNillable = u.isNillable) (htype : t.goType style = u.goType style) :
    (optional t).goType style = (optional u).goType style := by
  have hmarked : (optional t).isPointerOptional style = (optional u).isPointerOptional style := by
    rw [isPointerOptional, isPointerOptional, hnillable]
  rw [goType, goType, hmarked, htype]

/-- A second marker adds nothing. -/
theorem goType_optional_optional (style : OptionalStyle) (t : Resolved) :
    (optional (optional t)).goType style = (optional t).goType style := by
  rw [goType_eq, goType_eq style (optional t)]
  rfl

theorem goType_asOptional (style : OptionalStyle) (t : Resolved) :
    t.asOptional.goType style = (optional t).goType style := by
  cases t with
  | optional inner => exact (goType_optional_optional style inner).symm
  | _ => rfl

theorem goType_collapsed (style : OptionalStyle) (t : Resolved) :
    t.collapsed.goType style = t.goType style := by
  induction t with
  | collection item ih => rw [collapsed, goType, goType, ih]
  | optional inner ih =>
    rw [collapsed, goType_asOptional, goType_optional_congr inner.isNillable_collapsed ih]
  | _ => rfl

/-! ## The bare style -/

theorem goType_bare_optional (t : Resolved) : (optional t).goType .bare = t.goType .bare := rfl

theorem goType_bare_withoutMarkers (t : Resolved) :
    t.withoutMarkers.goType .bare = t.goType .bare := by
  induction t with
  | collection item ih => rw [withoutMarkers, goType, goType, ih]
  | optional inner ih => rw [withoutMarkers, goType_bare_optional, ih]
  | _ => rfl

theorem targets_goType_bare (t : Resolved) : (t.goType .bare).targets = [] := by
  induction t with
  | collection item ih => exact ih
  | optional inner ih => rw [goType_bare_optional, ih]
  | _ => rfl

/-! ## The pointer style -/

/-- The name that stands for a primitive type, an enumeration or a value. -/
inductive PlainName : Resolved → Go.Ty → Prop
  | primitive (p : Primitive) : PlainName (.primitive p) (.named (primitiveName p))
  | enum (name : String) : PlainName (.enum name) (.named name)
  | value (name : String) : PlainName (.value name) (.named name)

/-- What has no nil of its own goes by a name, apart from markers. -/
theorem plainName_required {t : Resolved} (h : t.isNillable = false) (style : OptionalStyle) :
    PlainName t.core (t.required.goType style) := by
  rw [← core_required]
  unfold isNillable at h
  cases hrequired : t.required with
  | primitive p => exact .primitive p
  | enum name => exact .enum name
  | value name => exact .value name
  | remote name => simp [hrequired] at h
  | collection item => simp [hrequired] at h
  | optional inner => exact absurd hrequired (t.required_ne_optional inner)

/-- Every pointer points to the name of a primitive type, an enumeration or a value. -/
theorem plainName_of_mem_targets {style : OptionalStyle} {t : Resolved} {target : Go.Ty}
    (h : target ∈ (t.goType style).targets) : PlainName t.core target := by
  induction t with
  | collection item ih => exact ih h
  | optional inner ih =>
    simp only [goType] at h
    split at h
    · next hpointer =>
      rcases List.mem_cons.1 h with rfl | h
      · -- the innermost marker: no pointer is inside, so all that is inside goes by a name
        rw [Bool.and_eq_true, Bool.not_eq_true', isPointer_goType_eq] at hpointer
        have hnillable : inner.isNillable = false := by
          simpa [isPointerOptional] using (Bool.and_eq_true_iff.1 hpointer.1).2
        rw [goType_required hpointer.2]
        exact plainName_required hnillable style
      · exact ih h
    · exact ih h
  | _ => exact absurd h List.not_mem_nil

/-- **Pointers in Go types have a normal form.** In the bare style there are none, and optional
    markers leave no trace. In the pointer style each points to the name of a primitive type, an
    enumeration or a value, and a marker next to another adds nothing. In both, a type is taken for
    a pointer exactly if it is one. -/
theorem goType_pointer_normal_form (t : Resolved) :
    ((t.goType .bare).targets = [] ∧ t.goType .bare = t.withoutMarkers.goType .bare) ∧
    ((∀ target ∈ (t.goType .pointer).targets, PlainName t.core target) ∧
      t.goType .pointer = t.collapsed.goType .pointer) ∧
    ∀ style, t.isPointerOptional style = true ↔ ∃ target, t.goType style = .pointer target := by
  refine ⟨⟨t.targets_goType_bare, t.goType_bare_withoutMarkers.symm⟩,
    ⟨fun _ => plainName_of_mem_targets, (t.goType_collapsed .pointer).symm⟩, fun style => ?_⟩
  rw [← isPointer_goType_eq]
  cases t.goType style <;> simp [Go.Ty.isPointer]

/-- An optional collection of items that are marked twice. -/
def optionalInts : Resolved := optional (collection (optional (optional (primitive .int))))

theorem optionalInts_pointer_normal_form :
    .named "int" ∈ (optionalInts.goType .pointer).targets ∧
      PlainName (primitive .int) (.named "int") := by
  have hmem : .named "int" ∈ (optionalInts.goType .pointer).targets := by decide
  exact ⟨hmem, (goType_pointer_normal_form optionalInts).2.1.1 _ hmem⟩

end Binding.Resolved

end GoBindings
