import GoBindings.Interface.OfSchema
import GoBindings.Proofs.Outcome
import GoBindings.Proofs.Rounding

set_option autoImplicit false

/-! # Which default counts

A property of a primitive type always has a default of the kind of that type: the one that its
description gives, if that is of the right kind, and the zero value otherwise. A reference to a
declared type has a default only if the description gives a text, and a collection has none. What a
description gives and no property takes is told in a notice (`notices_settleDefault`). -/

namespace GoBindings

open Outcome

namespace TypeExpr

theorem required_ne_optional (t inner : TypeExpr) : t.required ≠ optional inner := by
  induction t with
  | optional t ih => exact ih
  | _ => exact TypeExpr.noConfusion

/-- A flag that makes a property optional changes nothing but the markers of its type. -/
theorem required_asOptional (t : TypeExpr) : t.asOptional.required = t.required := by
  unfold asOptional
  split <;> rfl

end TypeExpr

namespace Default

/-! ## Data values as defaults -/

/-- What 64 bits with a sign can hold. -/
def Int64Range (n : Int) : Prop := -2 ^ 63 ≤ n ∧ n < 2 ^ 63

theorem isInt64_iff (n : Int) : isInt64 n = true ↔ Int64Range n := by
  simp [isInt64, Int64Range]

/-- The data value is one that a primitive type takes, and stands for the default. A real number is
    a double already; a whole one is rounded. -/
inductive Reads : Primitive → Json.Value → Default → Prop
  | text (s : String) : Reads .text (.text s) (.text s)
  | boolean (b : Bool) : Reads .boolean (.boolean b) (.boolean b)
  | int {n : Int} (h : Int64Range n) : Reads .int (.number (.whole n)) (.int n)
  | int64 {n : Int} (h : Int64Range n) : Reads .int64 (.number (.whole n)) (.int n)
  | real (x : Float) : Reads .float (.number (.real x)) (.float x)
  | whole {n : Int} {x : Float} (h : Decimal.Rounds n (.ofFloat x)) :
      Reads .float (.number (.whole n)) (.float x)

theorem floatOf_whole_iff {n : Int} {x : Float} :
    floatOf (.whole n) = x ↔ Decimal.Rounds n (.ofFloat x) := by
  constructor
  · rintro rfl
    exact Decimal.Rounds.ofFloat_ofInt n
  · exact fun h => h.eq_ofInt.symm

theorem ofValue?_eq_some_iff_reads {type : TypeExpr} {p : Primitive} {value : Json.Value}
    {d : Default} (h : type.required = .primitive p) :
    ofValue? type value = some d ↔ Reads p value d := by
  unfold ofValue?
  rw [h]
  constructor
  · intro hd
    split at hd
    · next hp =>
      cases hp
      cases hd
      exact .text _
    · next hp => cases hp
    · next hp =>
      cases hp
      cases hd
      exact .boolean _
    · next hp =>
      cases hp
      obtain ⟨hn, ⟨⟩⟩ := Option.ite_none_right_eq_some.1 hd
      exact .int ((isInt64_iff _).1 hn)
    · next hp =>
      cases hp
      obtain ⟨hn, ⟨⟩⟩ := Option.ite_none_right_eq_some.1 hd
      exact .int64 ((isInt64_iff _).1 hn)
    · next n hp =>
      cases hp
      cases hd
      cases n with
      | real x => exact .real x
      | whole n => exact .whole (floatOf_whole_iff.1 rfl)
    · cases hd
  · rintro (s | b | hn | hn | x | hrounds)
    · rfl
    · rfl
    · exact if_pos ((isInt64_iff _).2 hn)
    · exact if_pos ((isInt64_iff _).2 hn)
    · rfl
    · exact congrArg (some ∘ float) (floatOf_whole_iff.2 hrounds)

theorem ofValue?_eq_some_iff_text {type : TypeExpr} {name : String} {value : Json.Value}
    {d : Default} (h : type.required = .named name) :
    ofValue? type value = some d ↔ ∃ s, value = .text s ∧ d = text s := by
  unfold ofValue?
  rw [h]
  cases value <;> simp [eq_comm]

/-- The data value is one that a type takes, whatever its optional markers, and stands for the
    default. A collection takes none. -/
inductive Fits (type : TypeExpr) : Json.Value → Default → Prop
  | primitive {p : Primitive} {value : Json.Value} {d : Default} (h : type.required = .primitive p)
      (hreads : Reads p value d) : Fits type value d
  | named {name s : String} (h : type.required = .named name) : Fits type (.text s) (.text s)

theorem ofValue?_eq_some_iff_fits {type : TypeExpr} {value : Json.Value} {d : Default} :
    ofValue? type value = some d ↔ Fits type value d := by
  constructor
  · intro hd
    cases hrequired : type.required with
    | primitive p => exact .primitive hrequired ((ofValue?_eq_some_iff_reads hrequired).1 hd)
    | named name =>
      obtain ⟨s, rfl, rfl⟩ := (ofValue?_eq_some_iff_text hrequired).1 hd
      exact .named hrequired
    | collection item => simp [ofValue?, hrequired] at hd
    | optional inner => exact absurd hrequired (type.required_ne_optional inner)
  · rintro (⟨hrequired, hreads⟩ | hrequired)
    · exact (ofValue?_eq_some_iff_reads hrequired).2 hreads
    · exact (ofValue?_eq_some_iff_text hrequired).2 ⟨_, rfl, rfl⟩

theorem Fits.of_required_eq {type other : TypeExpr} {value : Json.Value} {d : Default}
    (h : Fits type value d) (hrequired : other.required = type.required) : Fits other value d := by
  cases h with
  | primitive hprimitive hreads => exact .primitive (hrequired.trans hprimitive) hreads
  | named hnamed => exact .named (hrequired.trans hnamed)

/-- A default is given, and the type does not take it. Null gives none. -/
def Ignored (type : TypeExpr) (given : Option Json.Value) (value : Json.Value) : Prop :=
  given = some value ∧ value ≠ .null ∧ ∀ d, ¬Fits type value d

/-! ## The default of a property -/

/-- What is a default of a primitive type. -/
inductive OfKind : Primitive → Default → Prop
  | text (s : String) : OfKind .text (.text s)
  | int {n : Int} (h : Int64Range n) : OfKind .int (.int n)
  | int64 {n : Int} (h : Int64Range n) : OfKind .int64 (.int n)
  | float (x : Float) : OfKind .float (.float x)
  | boolean (b : Bool) : OfKind .boolean (.boolean b)

/-- The zero value of a primitive type. -/
inductive IsZero : Primitive → Default → Prop
  | text : IsZero .text (.text "")
  | int : IsZero .int (.int 0)
  | int64 : IsZero .int64 (.int 0)
  | float : IsZero .float (.float 0)
  | boolean : IsZero .boolean (.boolean false)

theorem isZero_iff {p : Primitive} {d : Default} : IsZero p d ↔ zeroOf p = d := by
  constructor
  · rintro (_ | _ | _ | _ | _) <;> rfl
  · rintro rfl
    cases p with
    | text => exact .text
    | int => exact .int
    | int64 => exact .int64
    | float => exact .float
    | boolean => exact .boolean

/-- The default that counts for a primitive type, by the data value that is given, if one is. -/
inductive Settled (p : Primitive) : Option Json.Value → Default → Prop
  | given {value : Json.Value} {d : Default} (h : Reads p value d) : Settled p (some value) d
  | zero {given : Option Json.Value} {d : Default}
      (h : ∀ value d, given = some value → ¬Reads p value d) (hzero : IsZero p d) :
      Settled p given d

theorem Settled.ofKind {p : Primitive} {given : Option Json.Value} {d : Default}
    (h : Settled p given d) : OfKind p d := by
  cases h with
  | given hreads =>
    cases hreads with
    | text s => exact .text s
    | boolean b => exact .boolean b
    | int hn => exact .int hn
    | int64 hn => exact .int64 hn
    | real x => exact .float x
    | whole => exact .float _
  | zero _ hzero =>
    cases hzero with
    | text => exact .text ""
    | int => exact .int ⟨by decide, by decide⟩
    | int64 => exact .int64 ⟨by decide, by decide⟩
    | float => exact .float 0
    | boolean => exact .boolean false

theorem exists_settled (p : Primitive) (given : Option Json.Value) : ∃ d, Settled p given d := by
  by_cases h : ∃ value d, given = some value ∧ Reads p value d
  · obtain ⟨value, d, rfl, hreads⟩ := h
    exact ⟨d, .given hreads⟩
  · exact ⟨zeroOf p, .zero (fun value d hgiven hreads => h ⟨value, d, hgiven, hreads⟩)
      (isZero_iff.2 rfl)⟩

/-- The default that fits, and without one the zero value, if there is one. -/
def settle (type : TypeExpr) (given : Option Json.Value) : Option Default :=
  (given.bind (ofValue? type)).or (zero? type)

theorem settle_eq_some_iff_settled {type : TypeExpr} {p : Primitive} {given : Option Json.Value}
    {d : Default} (h : type.required = .primitive p) :
    settle type given = some d ↔ Settled p given d := by
  have hzero : zero? type = some (zeroOf p) := by rw [zero?, h]
  unfold settle
  rw [hzero]
  -- whether a data value fits decides between the two rules of `Settled`
  cases hfits : given.bind (ofValue? type) with
  | none =>
    have hnone : ∀ value d, given = some value → ¬Reads p value d := by
      rintro value d rfl hreads
      rw [Option.bind_some, (ofValue?_eq_some_iff_reads h).2 hreads] at hfits
      cases hfits
    constructor
    · rintro ⟨⟩
      exact .zero hnone (isZero_iff.2 rfl)
    · rintro (hreads | ⟨-, hd⟩)
      · exact absurd hreads (hnone _ _ rfl)
      · exact congrArg some (isZero_iff.1 hd)
  | some fitting =>
    obtain ⟨value, rfl, hvalue⟩ := Option.bind_eq_some_iff.1 hfits
    have hreads := (ofValue?_eq_some_iff_reads h).1 hvalue
    constructor
    · rintro ⟨⟩
      exact .given hreads
    · rintro (hd | hnone)
      · exact hvalue.symm.trans ((ofValue?_eq_some_iff_reads h).2 hd)
      · exact absurd hreads (hnone _ _ rfl)

theorem settle_eq_some_iff_text {type : TypeExpr} {name : String} {given : Option Json.Value}
    {d : Default} (h : type.required = .named name) :
    settle type given = some d ↔ ∃ s, given = some (.text s) ∧ d = text s := by
  have hzero : zero? type = none := by rw [zero?, h]
  unfold settle
  rw [hzero, Option.or_none, Option.bind_eq_some_iff]
  constructor
  · rintro ⟨value, rfl, hvalue⟩
    obtain ⟨s, rfl, rfl⟩ := (ofValue?_eq_some_iff_text h).1 hvalue
    exact ⟨s, rfl, rfl⟩
  · rintro ⟨s, rfl, rfl⟩
    exact ⟨_, rfl, (ofValue?_eq_some_iff_text h).2 ⟨s, rfl, rfl⟩⟩

theorem settle_of_collection {type item : TypeExpr} (h : type.required = .collection item)
    (given : Option Json.Value) : settle type given = none := by
  have hnone : ∀ value, ofValue? type value = none := by
    intro value
    rw [Option.eq_none_iff_forall_ne_some]
    intro d hd
    cases ofValue?_eq_some_iff_fits.1 hd with
    | primitive hrequired _ => cases h.symm.trans hrequired
    | named hrequired => cases h.symm.trans hrequired
  unfold settle
  rw [zero?, h]
  cases given with
  | none => rfl
  | some value => rw [Option.bind_some, hnone, Option.or_none]

end Default

namespace Interface

theorem result_settleDefault (place : Place) (type : TypeExpr) (given : Option Json.Value) :
    (settleDefault place type given).result = .ok (Default.settle type given) := by
  unfold settleDefault Default.settle
  split
  · rfl
  · have hnull : Default.ofValue? type .null = none := by
      unfold Default.ofValue?
      split <;> simp_all
    rw [Option.bind_some, hnull]
    rfl
  · next value _ =>
    rw [Option.bind_some]
    split
    · next hfits => rw [hfits]; rfl
    · next hfits => rw [hfits]; rfl

/-- There is a notice for a default that is ignored, and no other. -/
theorem notices_settleDefault (place : Place) (type : TypeExpr) (given : Option Json.Value) :
    (∀ value, Default.Ignored type given value →
      (settleDefault place type given).notices = [.defaultIgnored place value]) ∧
    ((∀ value, ¬Default.Ignored type given value) →
      (settleDefault place type given).notices = []) := by
  unfold settleDefault
  split
  · refine ⟨fun value hvalue => ?_, fun _ => rfl⟩
    exact absurd hvalue.1.symm (Option.some_ne_none value)
  · refine ⟨fun value hvalue => ?_, fun _ => rfl⟩
    exact absurd (Option.some.inj hvalue.1).symm hvalue.2.1
  · next value hnull =>
    split
    · next fitting hfits =>
      refine ⟨fun other hother => ?_, fun _ => rfl⟩
      obtain rfl := Option.some.inj hother.1
      exact absurd (Default.ofValue?_eq_some_iff_fits.1 hfits) (hother.2.2 fitting)
    · next hfits =>
      refine ⟨fun other hother => ?_, fun hnone => ?_⟩
      · obtain rfl := Option.some.inj hother.1
        rfl
      · refine absurd ⟨rfl, ?_, ?_⟩ (hnone value)
        · rintro rfl
          exact hnull rfl
        · intro d hd
          rw [Default.ofValue?_eq_some_iff_fits.2 hd] at hfits
          cases hfits

/-- Once the type is understood, only the default is left to be settled. -/
theorem Field.ofProperty_eq (path : Path) (place : Place) {p : Schema.Property} {e : TypeExpr}
    (h : TypeExpr.parse p.type = .ok e) :
    Field.ofProperty path place p =
      settleDefault place (if p.optional then e.asOptional else e) p.defaultValue >>=
        fun default => pure {
          name := p.name
          type := if p.optional then e.asOptional else e
          default
          doc := DocText.lines p.doc } := by
  have hparse : parseType path place p.type = pure e := by rw [parseType, h]
  rw [Field.ofProperty, hparse, pure_bind]

/-- A property whose type can be understood always gives a field. -/
theorem Field.result_ofProperty (path : Path) (place : Place) {p : Schema.Property} (e : TypeExpr)
    (h : TypeExpr.parse p.type = .ok e) :
    (Field.ofProperty path place p).result = .ok {
      name := p.name
      type := if p.optional then e.asOptional else e
      default := Default.settle (if p.optional then e.asOptional else e) p.defaultValue
      doc := DocText.lines p.doc } := by
  rw [Field.ofProperty_eq path place h, Logged.result_bind, result_settleDefault]
  rfl

theorem Field.notices_ofProperty (path : Path) (place : Place) {p : Schema.Property} (e : TypeExpr)
    (h : TypeExpr.parse p.type = .ok e) :
    (Field.ofProperty path place p).notices
      = (settleDefault place (if p.optional then e.asOptional else e) p.defaultValue).notices := by
  rw [Field.ofProperty_eq path place h, Logged.notices_bind (result_settleDefault place _ _)]
  exact List.append_nil _

theorem Field.default_of_ofProperty {path : Path} {place : Place} {p : Schema.Property}
    {f : Field} (h : (Field.ofProperty path place p).result = .ok f) :
    f.default = Default.settle f.type p.defaultValue := by
  unfold Field.ofProperty at h
  simp only [Logged.result_bind, bind_eq_ok_iff] at h
  obtain ⟨e, -, default, hdefault, hf⟩ := h
  cases hf
  rw [result_settleDefault] at hdefault
  exact (Except.ok.inj hdefault).symm

/-- **Defaults fit their types.** A property whose type is understood gives a field. If the type is
    primitive, apart from optional markers, the field has a default of its kind: the one that the
    description gives, if that is of the kind, and the zero value otherwise. An integer has to be
    given as a whole number of 64 bits; a number with a fraction or an exponent is a real one. A
    floating point number may be given as either, and a whole number is rounded to the nearest
    double. A reference has a default exactly if a text is given, and a collection has none. There
    is a notice exactly if something other than null is given and not taken. -/
theorem Field.default_fits_type (path : Path) (place : Place) {p : Schema.Property} {e : TypeExpr}
    (h : TypeExpr.parse p.type = .ok e) :
    ∃ f, (Field.ofProperty path place p).result = .ok f ∧
      (match e.required with
        | .primitive q =>
          ∃ d, f.default = some d ∧ Default.OfKind q d ∧ Default.Settled q p.defaultValue d
        | .named _ =>
          ∀ d, f.default = some d ↔ ∃ s, p.defaultValue = some (.text s) ∧ d = .text s
        | .collection _ | .optional _ => f.default = none) ∧
      (∀ value, Default.Ignored e p.defaultValue value →
        (Field.ofProperty path place p).notices = [.defaultIgnored place value]) ∧
      ((∀ value, ¬Default.Ignored e p.defaultValue value) →
        (Field.ofProperty path place p).notices = []) := by
  have hfield := Field.result_ofProperty path place e h
  have hnotices := Field.notices_ofProperty path place e h
  have hrequired : (if p.optional then e.asOptional else e).required = e.required := by
    split
    · exact e.required_asOptional
    · rfl
  generalize (if p.optional then e.asOptional else e) = type at hfield hnotices hrequired
  have hignored : ∀ value, Default.Ignored type p.defaultValue value ↔
      Default.Ignored e p.defaultValue value := by
    intro value
    refine and_congr_right fun _ => and_congr_right fun _ => forall_congr' fun d => not_congr ?_
    constructor
    · exact fun hfits => hfits.of_required_eq hrequired.symm
    · exact fun hfits => hfits.of_required_eq hrequired
  refine ⟨_, hfield, ?_, ?_⟩
  · cases he : e.required with
    | primitive q =>
      obtain ⟨d, hd⟩ := Default.exists_settled q p.defaultValue
      exact ⟨d, (Default.settle_eq_some_iff_settled (hrequired.trans he)).2 hd, hd.ofKind, hd⟩
    | named name => exact fun d => Default.settle_eq_some_iff_text (hrequired.trans he)
    | collection item => exact Default.settle_of_collection (hrequired.trans he) p.defaultValue
    | optional inner => exact absurd he (e.required_ne_optional inner)
  · have hsettled := notices_settleDefault place type p.defaultValue
    rw [hnotices]
    simpa only [hignored] using hsettled

/-- A volume that is optional, with a default that is one too large for 64 bits. -/
def volume : Schema.Property :=
  ⟨"volume", "int<>", "", true, some (.number (.whole 0x8000000000000000))⟩

def volumeField : Logged Field :=
  Field.ofProperty ⟨"player.kmd.json"⟩ (.property "Player" "volume") volume

/-- The default is dropped with a notice, and the zero value counts. -/
theorem volume_default_fits_type :
    ∃ f, volumeField.result = .ok f ∧ f.default = some (.int 0) ∧
      volumeField.notices =
        [.defaultIgnored (.property "Player" "volume") (.number (.whole 0x8000000000000000))] := by
  have hparse : TypeExpr.parse volume.type = .ok (.optional (.primitive .int)) := by decide +kernel
  have hreads : ∀ d, ¬Default.Reads .int (.number (.whole 0x8000000000000000)) d := by
    rintro d (_ | _ | hrange)
    exact absurd hrange.2 (by decide)
  obtain ⟨f, hf, hdefault, hnotices, -⟩ := Field.default_fits_type ⟨"player.kmd.json"⟩
    (.property "Player" "volume") hparse
  refine ⟨f, hf, ?_, hnotices _ ⟨rfl, Json.Value.noConfusion, ?_⟩⟩
  · obtain ⟨d, hd, -, hsettled⟩ := hdefault
    cases hsettled with
    | given h => exact absurd h (hreads d)
    | zero h hzero =>
      cases hzero
      exact hd
  · rintro d (⟨hrequired, hd⟩ | ⟨hrequired⟩)
    cases hrequired
    exact hreads d hd

end Interface

end GoBindings
