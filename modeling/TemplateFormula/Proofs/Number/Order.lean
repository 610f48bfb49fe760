import Mathlib
import TemplateFormula.Value.Comparison

/-!
# The order of doubles

Every double that is no NaN has a place on one line, both zeros the same. The comparisons of two
doubles are those of their places, so apart from NaN the order is total.
-/

namespace TemplateFormula.Number

open Float.Model UnpackedFloat

/-- The sign of a double, and behind it the exponent and the mantissa. -/
abbrev Place := Int × Int × Int

def Place.order : Place → Place → Ordering :=
  compareLex (compareOn (·.1)) (compareLex (compareOn (·.2.1)) (compareOn (·.2.2)))

instance : Std.TransCmp Place.order := inferInstanceAs (Std.TransCmp (compareLex _ _))

def unpackedPlace : UnpackedFloat → Place
  | .infinity .negative => (-2, 0, 0)
  | .finite .negative m e _ => (-1, -e, -m)
  | .zero _ | .notANumber => (0, 0, 0)
  | .finite .positive m e _ => (1, e, m)
  | .infinity .positive => (2, 0, 0)

theorem compare_neg (a b : Int) : compare (-a) (-b) = (compare a b).swap := by
  rcases lt_trichotomy a b with lt | rfl | gt
  · rw [compare_lt_iff_lt.2 lt, compare_gt_iff_gt.2 (neg_lt_neg lt)]
    rfl
  · rw [compare_eq_iff_eq.2 rfl, compare_eq_iff_eq.2 rfl]
    rfl
  · rw [compare_gt_iff_gt.2 gt, compare_lt_iff_lt.2 (neg_lt_neg gt)]
    rfl

theorem compare_cast (m n : Nat) : compare (m : Int) (n : Int) = compare m n := by
  rcases lt_trichotomy m n with lt | rfl | gt
  · rw [compare_lt_iff_lt.2 lt, compare_lt_iff_lt.2 (Int.ofNat_lt.2 lt)]
  · rw [compare_eq_iff_eq.2 rfl, compare_eq_iff_eq.2 rfl]
  · rw [compare_gt_iff_gt.2 gt, compare_gt_iff_gt.2 (Int.ofNat_lt.2 gt)]

theorem unpacked_compare {a b : UnpackedFloat} (ha : a ≠ .notANumber) (hb : b ≠ .notANumber) :
    a.compare b = some (Place.order (unpackedPlace a) (unpackedPlace b)) := by
  cases a with
  | notANumber => exact absurd rfl ha
  | infinity s =>
    cases b with
    | notANumber => exact absurd rfl hb
    | infinity t => cases s <;> cases t <;> rfl
    | zero t => cases s <;> rfl
    | finite t n f pos => cases s <;> cases t <;> rfl
  | zero s =>
    cases b with
    | notANumber => exact absurd rfl hb
    | infinity t => cases t <;> rfl
    | zero t => rfl
    | finite t n f pos => cases t <;> rfl
  | finite s m e pos =>
    cases b with
    | notANumber => exact absurd rfl hb
    | infinity t => cases s <;> cases t <;> rfl
    | zero t => cases s <;> rfl
    | finite t n f pos' =>
      cases s with
      | negative =>
        cases t with
        | negative =>
          have same : Place.order (-1, -e, -(m : Int)) (-1, -f, -(n : Int)) =
              (compare (-e) (-f)).then (compare (-(m : Int)) (-(n : Int))) := rfl
          rw [unpackedPlace, unpackedPlace, same, compare_neg, compare_neg, compare_cast,
            UnpackedFloat.compare, Ordering.swap_then]
        | positive => rfl
      | positive =>
        cases t with
        | negative => rfl
        | positive =>
          have same : Place.order (1, e, (m : Int)) (1, f, (n : Int)) =
              (compare e f).then (compare (m : Int) (n : Int)) := rfl
          rw [unpackedPlace, unpackedPlace, same, compare_cast, UnpackedFloat.compare]

def place (x : Float) : Place := unpackedPlace x.toModel.unpack

variable {x y : Float}

theorem isNaN_eq_false_iff : x.isNaN = false ↔ x.toModel.unpack ≠ .notANumber := by
  rw [Ne, ← UnpackedFloat.isNaN_iff, Bool.not_eq_true]
  rfl

theorem model_compare (hx : x.isNaN = false) (hy : y.isNaN = false) :
    x.toModel.unpack.compare y.toModel.unpack = some (Place.order (place x) (place y)) :=
  unpacked_compare (isNaN_eq_false_iff.1 hx) (isNaN_eq_false_iff.1 hy)

theorem lt_iff (hx : x.isNaN = false) (hy : y.isNaN = false) :
    x < y ↔ Place.order (place x) (place y) = .lt := by
  change decide (x.toModel.unpack.lt y.toModel.unpack = true) = true ↔ _
  rw [decide_eq_true_eq, UnpackedFloat.lt, model_compare hx hy, beq_iff_eq, Option.some_inj]

theorem le_iff (hx : x.isNaN = false) (hy : y.isNaN = false) :
    x ≤ y ↔ (Place.order (place x) (place y)).isLE = true := by
  change decide (x.toModel.unpack.le y.toModel.unpack = true) = true ↔ _
  rw [decide_eq_true_eq, UnpackedFloat.le, model_compare hx hy]
  rfl

theorem beq_iff (hx : x.isNaN = false) (hy : y.isNaN = false) :
    (x == y) = true ↔ Place.order (place x) (place y) = .eq := by
  change x.toModel.unpack.beq y.toModel.unpack = true ↔ _
  rw [UnpackedFloat.beq, model_compare hx hy, beq_iff_eq, Option.some_inj]

/-- Nothing is less than a NaN, greater or equal. -/
theorem incomparable_of_isNaN (h : x.isNaN = true ∨ y.isNaN = true) :
    x.toModel.unpack.compare y.toModel.unpack = none := by
  rcases h with nan | nan
  · rw [UnpackedFloat.isNaN_iff.1 nan]
    rfl
  · rw [UnpackedFloat.isNaN_iff.1 nan]
    cases x.toModel.unpack <;> rfl

open Value (orderNumbers?)

theorem orderNumbers?_of_numbers (hx : x.isNaN = false) (hy : y.isNaN = false) :
    orderNumbers? x y = some (Place.order (place x) (place y)) := by
  have swap : Place.order (place y) (place x) = (Place.order (place x) (place y)).swap :=
    Std.OrientedCmp.eq_swap
  rw [orderNumbers?, if_congr (lt_iff hx hy) rfl rfl, if_congr (lt_iff hy hx) rfl rfl,
    if_congr (beq_iff hx hy) rfl rfl, swap]
  cases Place.order (place x) (place y) <;> rfl

theorem orderNumbers?_of_isNaN (h : x.isNaN = true ∨ y.isNaN = true) :
    orderNumbers? x y = none := by
  have less : ¬ x < y := by
    change ¬ decide (x.toModel.unpack.lt y.toModel.unpack = true) = true
    rw [UnpackedFloat.lt, incomparable_of_isNaN h]
    decide
  have greater : ¬ y < x := by
    change ¬ decide (y.toModel.unpack.lt x.toModel.unpack = true) = true
    rw [UnpackedFloat.lt, incomparable_of_isNaN h.symm]
    decide
  have equal : ¬ (x == y) = true := by
    change ¬ x.toModel.unpack.beq y.toModel.unpack = true
    rw [UnpackedFloat.beq, incomparable_of_isNaN h]
    decide
  rw [orderNumbers?, if_neg less, if_neg greater, if_neg equal]

theorem orderNumbers?_swap (x y : Float) :
    (orderNumbers? x y).map Ordering.swap = orderNumbers? y x := by
  by_cases h : x.isNaN = true ∨ y.isNaN = true
  · rw [orderNumbers?_of_isNaN h, orderNumbers?_of_isNaN h.symm]
    rfl
  · rw [not_or, Bool.not_eq_true, Bool.not_eq_true] at h
    rw [orderNumbers?_of_numbers h.1 h.2, orderNumbers?_of_numbers h.2 h.1, Option.map_some,
      ← Std.OrientedCmp.eq_swap]

end TemplateFormula.Number
